/-
  Runs of the coordinator.

  A turn is a command that was served: what the coordinator asked meanwhile, what it was answered,
  and its reply.  `Serves` strings turns together, each starting from the coordinator that the last
  one left; `talk` is everything that was asked and answered on the way.  A run that was stopped
  within a command is some turns, and a path through the beginning of one more.

  The second part says which parts of the coordinator ask what: everything outside of the locked
  section of a command is `Quiet`, it neither takes the lock nor writes, and everything inside of it
  is `Calm`, it leaves version control alone.  What is `Outside` has nothing to do with the store.
  A task that may be tried again is one try, and what follows on that (`Talk.attempt_eq`).
-/
import Backlog.Coordinator.Serve
import Backlog.Proofs.Script.Ensures

namespace Backlog

/-- A request of the coordinator with its answer. -/
abbrev Exchange := Script.Exchange Request Request.Answer

/-- Surroundings of the coordinator, with states of some type. -/
abbrev Surroundings (σ : Type) := Script.World Request Request.Answer σ

namespace Coordinator

/-! ## Turns -/

/-- A command that was served. -/
structure Turn where
  now : Stamp
  command : Command
  /-- What was asked meanwhile, and what was answered. -/
  log : List Exchange
  reply : Except CommandError command.Answer

/-- Everything that was asked and answered in these turns. -/
def talk (turns : List Turn) : List Exchange := turns.flatMap Turn.log

@[simp] theorem talk_nil : talk [] = [] := rfl

@[simp] theorem talk_cons (t : Turn) (turns : List Turn) : talk (t :: turns) = t.log ++ talk turns :=
  rfl

theorem talk_append (ts us : List Turn) : talk (ts ++ us) = talk ts ++ talk us :=
  List.flatMap_append

/-- The coordinator serves these commands, one after the other. -/
inductive Serves (settings : Settings) : Coordinator → List Turn → Coordinator → Prop where
  | idle (c : Coordinator) : Serves settings c [] c
  | turn {c between after : Coordinator} {t : Turn} {turns : List Turn} :
      (submit settings t.now t.command c).Leads t.log (.done (t.reply, between)) →
      Serves settings between turns after → Serves settings c (t :: turns) after

variable {settings : Settings}

theorem Serves.append {c between after : Coordinator} {ts us : List Turn}
    (hts : Serves settings c ts between) (hus : Serves settings between us after) :
    Serves settings c (ts ++ us) after := by
  induction hts with
  | idle => exact hus
  | turn ht _ ih => exact .turn ht (ih hus)

theorem Serves.of_append {c after : Coordinator} {ts us : List Turn}
    (h : Serves settings c (ts ++ us) after) :
    ∃ between, Serves settings c ts between ∧ Serves settings between us after := by
  induction ts generalizing c with
  | nil => exact ⟨c, .idle c, h⟩
  | cons t ts ih =>
    cases h with
    | turn ht hrest =>
      obtain ⟨between, hts, hus⟩ := ih hrest
      exact ⟨between, .turn ht hts, hus⟩

end Coordinator

/-! ## Accepted completions -/

/-- The phase run whose report was accepted with a reply, if it is the reply to one. -/
def Command.completion? : (command : Command) → Except CommandError command.Answer → Option PhaseRun
  | .completePhase completion, .ok _ => some completion
  | _, _ => none

theorem Command.completion?_eq_none {command : Command}
    {reply : Except CommandError command.Answer}
    (hnot : ∀ completion, command ≠ .completePhase completion) :
    command.completion? reply = none := by
  cases command with
  | completePhase completion => exact absurd rfl (hnot completion)
  | _ => rfl

namespace Coordinator

/-- The phase runs whose reports were accepted in these turns. -/
def completions (turns : List Turn) : List PhaseRun :=
  turns.flatMap fun t => (t.command.completion? t.reply).toList

theorem completions_append (ts us : List Turn) :
    completions (ts ++ us) = completions ts ++ completions us :=
  List.flatMap_append

end Coordinator

/-! ## Requests that leave the store or version control alone -/

/-- The request changes neither the lock nor what is stored. -/
def Request.Quiet : Request → Prop
  | .lock | .unlock | .save _ | .append _ => False
  | .load | .archivedIds | .stage _ | .unstage _ | .stageStore | .commit _ | .head | .pause _
  | .note _ => True

/-- The request is none of the store. -/
def Request.Outside : Request → Prop
  | .lock | .unlock | .load | .save _ | .append _ | .archivedIds => False
  | .stage _ | .unstage _ | .stageStore | .commit _ | .head | .pause _ | .note _ => True

theorem Request.quiet_of_outside {q : Request} (h : q.Outside) : q.Quiet := by
  cases q with
  | lock => exact h
  | unlock => exact h
  | save items => exact h
  | append item => exact h
  | _ => trivial

/-- The request changes nothing in version control. -/
def Request.Calm : Request → Prop
  | .stage _ | .unstage _ | .stageStore | .commit _ => False
  | .lock | .unlock | .load | .save _ | .append _ | .archivedIds | .head | .pause _ | .note _ => True

/-- Version control was asked to stage, to unstage or to commit, and failed. -/
def Exchange.trackerFails : Exchange → Bool
  | ⟨.stage _, .error _⟩ | ⟨.unstage _, .error _⟩ | ⟨.stageStore, .error _⟩ | ⟨.commit _, .error _⟩ =>
    true
  | _ => false

/-- The lock was not free. -/
def StoreFault.isTimeout : StoreFault → Bool
  | .failed (.lockTimeout _) => true
  | .failed _ | .crashed _ => false

namespace Talk

/-- A failed call ends a task for want of the lock only if it says that this was not free. -/
theorem ended_ne_lockTimeout {α : Type} {fault : StoreFault} (h : fault.isTimeout = false)
    (waitedMs : Nat) :
    (.error (.ofFault fault) : Except Stop α) ≠ .error (.error (.lockTimeout waitedMs)) := by
  intro hended
  rcases fault with e | message
  · cases e with
    | lockTimeout waited => cases h
    | _ => cases hended
  · cases hended

/-- It never says that the coordinator has halted. -/
theorem ended_ne_halted {α : Type} (fault : StoreFault) :
    (.error (.ofFault fault) : Except Stop α) ≠ .error (.error .halted) := by
  intro hended
  rcases fault with e | message
  · cases e <;> cases hended
  · cases hended

/-- A task is answered that the coordinator has halted only if it has ended so. -/
theorem outcome_ne_halted {operation : String} {α : Type} {ended : Except Stop α}
    (h : ended ≠ .error (.error .halted)) : outcome operation ended ≠ .error .halted := by
  intro houtcome
  rcases ended with (e | message) | a
  · cases houtcome
    exact h rfl
  · cases houtcome
  · cases houtcome

/-- Whatever stops a task, it is answered with an error. -/
theorem outcome_error (operation : String) (stop : Stop) :
    ∃ e, ∀ α : Type, (outcome operation (.error stop) : Except CommandError α) = .error e := by
  rcases stop with e | message
  · exact ⟨e, fun _ => rfl⟩
  · exact ⟨_, fun _ => rfl⟩

/-! ## Tries -/

section

variable {α : Type} {delayMs : Nat} {operation : String} {task : StoreTask α} {more : Nat}

/-- What follows a try. -/
def afterTry (delayMs : Nat) (operation : String) (task : StoreTask α) :
    Nat → Except Stop α → Talk (Except CommandError α)
  | more + 1, .error (.error (.lockTimeout _)) => do
    note (.lockBusy delayMs)
    pause delayMs
    attempt delayMs operation task more
  | _, ended => return outcome operation ended

theorem attempt_eq : attempt delayMs operation task more
    = task.run >>= afterTry delayMs operation task more := by
  cases more with
  | zero => rfl
  | succ more =>
    rw [attempt]
    refine bind_congr fun ended => ?_
    split
    · rfl
    · next hnot =>
      rw [afterTry]
      exact fun _ waitedMs _ => hnot waitedMs

theorem afterTry_of_ne {ended : Except Stop α}
    (h : ∀ waitedMs, ended ≠ .error (.error (.lockTimeout waitedMs))) :
    afterTry delayMs operation task more ended = .done (outcome operation ended) := by
  cases more with
  | zero => rfl
  | succ more =>
    rw [afterTry]
    · rfl
    · exact fun _ waitedMs _ => h waitedMs

end

/-! ## Tasks that ask for one kind of things -/

section

variable {p : Request → Prop} (hnote : ∀ d, p (.note d))
include hnote

theorem only_note (d : Diagnostic) : (note d).Only p := ⟨hnote d, fun _ => trivial⟩

theorem only_settle {α : Type} (a : Except TrackerFault α) : (settle a).Only p := by
  rcases a with fault | a
  · cases fault <;> exact ⟨hnote _, fun _ => trivial⟩
  · trivial

theorem only_stage {paths : List String} (h : p (.stage paths)) : (stage paths).Only p :=
  ⟨h, fun a => (only_settle hnote a).bind fun _ => trivial⟩

theorem only_unstage {paths : List String} (h : p (.unstage paths)) : (unstage paths).Only p :=
  ⟨h, fun a => (only_settle hnote a).bind fun _ => trivial⟩

theorem only_stageStore (h : p .stageStore) : stageStore.Only p :=
  ⟨h, fun a => (only_settle hnote a).bind fun _ => trivial⟩

theorem only_commit {message : String} (h : p (.commit message)) : (commit message).Only p :=
  ⟨h, fun a => only_settle hnote a⟩

theorem only_head (h : p .head) : head.Only p :=
  ⟨h, fun a => (only_settle hnote a).bind fun _ => trivial⟩

theorem only_withRetries {α : Type} {policy : RetryPolicy} {operation : String}
    {task : StoreTask α} (hpause : ∀ ms, p (.pause ms)) (htask : task.run.Only p) :
    (withRetries policy operation task).Only p := by
  unfold withRetries
  induction policy.attempts - 1 with
  | zero => exact htask.bind fun _ => trivial
  | succ more ih =>
    refine htask.bind fun ended => ?_
    split
    · have hwait : (pause policy.delayMs).Only p := ⟨hpause _, fun _ => trivial⟩
      exact (only_note hnote _).bind fun _ => hwait.bind fun _ => ih
    · trivial

end

theorem only_locked {p : Request → Prop} {α : Type} {task : StoreTask α} (hlock : p .lock)
    (hunlock : p .unlock) (htask : task.run.Only p) : task.locked.run.Only p := by
  refine ⟨hlock, fun a => ?_⟩
  rcases a with fault | ⟨⟩
  · trivial
  · exact htask.bind fun _ => ⟨hunlock, fun _ => trivial⟩

end Talk

end Backlog
