/-
  Tries of a transaction.

  Program: a task over the store stops at the first call that fails; under the lock it is tried again if
  the lock was not free, after a note and a pause, as often as the policy says.

  Specification: a task has met the lock busy as often as it is tried and done nothing else, or it has
  met it otherwise before that and gone on as if it had never been busy (`Tried.shape`).  After any
  other failure there is no further try (`Tried.stopsAt`).

  The crux is that a task which met the lock free is `Prompt`: it ends for want of the lock only if one
  of its calls says so.
-/
import Backlog.Proofs.Coordinator.Section

namespace Backlog

open Talk (Stop StoreTask)
open Talk.StoreTask (load save append archivedIds ofExcept locked lookUp retire)

/-! ## Failures of the store -/

/-- How a request to the store failed, if it is one and did. -/
def Request.fault? : (q : Request) → q.Answer → Option StoreFault
  | .lock, .error fault | .load, .error fault | .save _, .error fault | .append _, .error fault
  | .archivedIds, .error fault => some fault
  | _, _ => none

/-- How the store failed in an exchange, if it did. -/
def Exchange.fault? (x : Exchange) : Option StoreFault := x.question.fault? x.answer

theorem StoreFault.eq_of_isTimeout {fault : StoreFault} (h : fault.isTimeout = true) :
    ∃ waitedMs, fault = .failed (.lockTimeout waitedMs) := by
  rcases fault with e | message
  · cases e with
    | lockTimeout waitedMs => exact ⟨waitedMs, rfl⟩
    | _ => cases h
  · cases h

/-- The store said that the lock was not free. -/
def Exchange.isTimeout (x : Exchange) : Bool := x.fault?.any StoreFault.isTimeout

theorem Exchange.fault?_of_outside {x : Exchange} (h : x.question.Outside) : x.fault? = none := by
  obtain ⟨q, answer⟩ := x
  cases q with
  | lock => exact h.elim
  | load => exact h.elim
  | save items => exact h.elim
  | append item => exact h.elim
  | archivedIds => exact h.elim
  | _ => rfl

namespace Talk

/-! ## Tasks that stop at the first failure -/

/-- A task asks the store alone, stops at the first call that fails, and otherwise ends in an error only
    if that is decided. -/
def Prompt {α : Type} : Talk (Except Stop α) → Prop
  | .done ended => ∀ e, ended = .error (.error e) → e.isDecided = true
  | .ask q next => q.OnStore ∧ ∀ answer,
      (∀ fault, q.fault? answer = some fault → next answer = .done (.error (.ofFault fault))) ∧
      (q.fault? answer = none → Prompt (next answer))

variable {α β : Type}

theorem Prompt.bind {s : Talk (Except Stop α)} {k : α → StoreTask β} (hs : Prompt s)
    (hk : ∀ a, Prompt (k a).run) : Prompt (s >>= ExceptT.bindCont k) := by
  induction s with
  | done ended =>
    cases ended with
    | ok a => exact hk a
    | error stop =>
      intro e h
      cases h
      exact hs e rfl
  | ask q next ih =>
    refine ⟨hs.1, fun answer => ⟨fun fault hfault => ?_, fun hnone => ?_⟩⟩
    · show next answer >>= ExceptT.bindCont k = _
      rw [(hs.2 answer).1 fault hfault]
      rfl
    · exact ih answer ((hs.2 answer).2 hnone)

/-- A single call is such a task. -/
theorem prompt_call {q : Request} {next : q.Answer → Talk (Except Stop α)} (hq : q.OnStore)
    (h : ∀ answer,
      (∃ fault, q.fault? answer = some fault ∧ next answer = .done (.error (.ofFault fault))) ∨
      (q.fault? answer = none ∧ ∃ a, next answer = .done (.ok a))) : Prompt (.ask q next) := by
  refine ⟨hq, fun answer => ?_⟩
  rcases h answer with ⟨fault, hfault, hnext⟩ | ⟨hnone, a, hnext⟩
  · rw [hfault, hnext]
    exact ⟨fun _ h => (by cases h; rfl), fun h => (by cases h)⟩
  · rw [hnone, hnext]
    exact ⟨fun _ h => (by cases h), fun _ e h => (by cases h)⟩

theorem prompt_load : Prompt load.run := by
  refine prompt_call trivial fun answer => ?_
  rcases answer with fault | items
  · exact .inl ⟨fault, rfl, rfl⟩
  · exact .inr ⟨rfl, items, rfl⟩

theorem prompt_lookUp (readsArchive : Bool) : Prompt (lookUp readsArchive).run := by
  cases readsArchive with
  | false => rintro e ⟨⟩
  | true =>
    refine prompt_call trivial fun answer => ?_
    rcases answer with fault | known
    · exact .inl ⟨fault, rfl, rfl⟩
    · exact .inr ⟨rfl, known, rfl⟩

theorem prompt_retire (retired : Option Item) : Prompt (retire retired).run := by
  cases retired with
  | none => rintro e ⟨⟩
  | some item =>
    refine prompt_call trivial fun answer => ?_
    rcases answer with fault | ⟨⟩
    · exact .inl ⟨fault, rfl, rfl⟩
    · exact .inr ⟨rfl, (), rfl⟩

theorem prompt_save (items : List Item) : Prompt (save items).run := by
  refine prompt_call trivial fun answer => ?_
  rcases answer with fault | ⟨⟩
  · exact .inl ⟨fault, rfl, rfl⟩
  · exact .inr ⟨rfl, (), rfl⟩

/-- A transaction is one, if it decides. -/
theorem prompt_transact {readsArchive : Bool}
    {decide : List Item → List String → Except CommandError (Decision α)}
    (hdecide : ∀ items archived e, decide items archived = .error e → e.isDecided = true) :
    Prompt (transact readsArchive decide).run := by
  refine prompt_load.bind fun items => (prompt_lookUp readsArchive).bind fun archived => ?_
  have hdecision : Prompt (ofExcept (decide items archived)).run := by
    cases hdecided : decide items archived with
    | error e =>
      rintro _ ⟨⟩
      exact hdecide items archived e hdecided
    | ok d => rintro e ⟨⟩
  refine hdecision.bind fun d => (prompt_retire d.retired).bind fun _ => ?_
  exact (prompt_save d.items).bind fun _ => by rintro e ⟨⟩

/-- The transaction of a command is one. -/
theorem prompt_command (settings : Coordinator.Settings) (now : Stamp) (head : Option String)
    (command : Command) :
    Prompt (transact command.readsArchive (command.decide settings now head)).run :=
  prompt_transact fun _ _ _ => Command.isDecided_decide

/-- What a whole path through such a task looks like: all calls succeed, or the last one fails and ends
    it. -/
theorem Prompt.of_leads {s : Talk (Except Stop α)} {log : List Exchange} {ended : Except Stop α}
    (hs : Prompt s) (hlog : s.Leads log (.done ended)) :
    (∀ x ∈ log, x.question.OnStore) ∧
    ((∀ x ∈ log, x.fault? = none) ∧ (∀ e, ended = .error (.error e) → e.isDecided = true) ∨
      ∃ earlier x fault, log = earlier ++ [x] ∧ (∀ y ∈ earlier, y.fault? = none) ∧
        x.fault? = some fault ∧ ended = .error (.ofFault fault)) := by
  induction s generalizing log with
  | done a =>
    cases hlog
    exact ⟨fun _ hx => (by cases hx), .inl ⟨fun _ hx => (by cases hx), hs⟩⟩
  | ask q next ih =>
    cases hlog with
    | @step _ _ answer log _ hlog =>
      obtain ⟨hq, hanswer⟩ := hs
      cases hfault : q.fault? answer with
      | some fault =>
        -- the task ends here
        rw [(hanswer answer).1 fault hfault] at hlog
        cases hlog
        exact ⟨List.forall_mem_singleton.mpr hq,
          .inr ⟨[], ⟨q, answer⟩, fault, rfl, fun _ hx => (by cases hx), hfault, rfl⟩⟩
      | none =>
        obtain ⟨hall, hends⟩ := ih answer ((hanswer answer).2 hfault) hlog
        refine ⟨List.forall_mem_cons.mpr ⟨hq, hall⟩, ?_⟩
        rcases hends with ⟨hnone, hended⟩ | ⟨earlier, x, fault, rfl, hnone, hx, hended⟩
        · exact .inl ⟨List.forall_mem_cons.mpr ⟨hfault, hnone⟩, hended⟩
        · exact .inr ⟨⟨q, answer⟩ :: earlier, x, fault, rfl,
            List.forall_mem_cons.mpr ⟨hfault, hnone⟩, hx, hended⟩

/-! ## How tries go -/

/-- The lock was not free, and there is another try after a pause. -/
def busy (delayMs waitedMs : Nat) : List Exchange :=
  [⟨.lock, .error (.failed (.lockTimeout waitedMs))⟩, ⟨.note (.lockBusy delayMs), ()⟩,
    ⟨.pause delayMs, ()⟩]

/-- How a task goes that may be tried so many times more, and what it is answered with. -/
inductive Tried (delayMs : Nat) (operation : String) (task : StoreTask α) :
    Nat → List Exchange → Except CommandError α → Prop where
  /-- The lock was not free, at the last try. -/
  | exhausted {waitedMs : Nat} :
      Tried delayMs operation task 0 [⟨.lock, .error (.failed (.lockTimeout waitedMs))⟩]
        (.error (.lockTimeout waitedMs))
  /-- The lock was not free, and the task is tried again. -/
  | again {more waitedMs : Nat} {log : List Exchange} {r : Except CommandError α} :
      Tried delayMs operation task more log r →
      Tried delayMs operation task (more + 1) (busy delayMs waitedMs ++ log) r
  /-- Taking the lock failed otherwise. -/
  | failed {more : Nat} {fault : StoreFault} : fault.isTimeout = false →
      Tried delayMs operation task more [⟨.lock, .error fault⟩]
        (outcome operation (.error (.ofFault fault)))
  /-- The lock was free. -/
  | held {more : Nat} {calls : List Exchange} {ended : Except Stop α} :
      task.run.Leads calls (.done ended) →
      (∀ waitedMs, ended ≠ .error (.error (.lockTimeout waitedMs))) →
      Tried delayMs operation task more (⟨.lock, .ok ()⟩ :: (calls ++ [⟨.unlock, ()⟩]))
        (outcome operation ended)

variable {delayMs : Nat} {operation : String} {task : StoreTask α} {more : Nat}
  {log : List Exchange} {r : Except CommandError α}

/-- A whole path through a task under the lock. -/
theorem leads_locked {ended : Except Stop α} :
    (locked task).run.Leads log (.done ended) ↔
      (∃ fault, log = [⟨.lock, .error fault⟩] ∧ ended = .error (.ofFault fault)) ∨
      ∃ calls, log = ⟨.lock, .ok ()⟩ :: (calls ++ [⟨.unlock, ()⟩]) ∧
        task.run.Leads calls (.done ended) := by
  constructor
  · intro h
    cases h with
    | @step _ _ answer log _ h =>
      rcases answer with fault | ⟨⟩
      · cases h
        exact .inl ⟨fault, rfl, rfl⟩
      · obtain ⟨ended', calls, rest, rfl, hcalls, hrest⟩ := Script.leads_bind.mp h
        cases hrest with
        | step hrest =>
          cases hrest
          exact .inr ⟨calls, rfl, hcalls⟩
  · rintro (⟨fault, rfl, rfl⟩ | ⟨calls, rfl, hcalls⟩)
    · exact .step (.stop _)
    · exact .step (Script.leads_bind.mpr ⟨ended, calls, _, rfl, hcalls, .step (.stop _)⟩)

/-- The contract of the store: that the lock is not free is said only when it is asked for. -/
def KeepsContract (log : List Exchange) : Prop := ∀ x ∈ log, x.isTimeout = true → x.question = .lock

/-- Under the contract, a task that met the lock free does not end for want of it. -/
theorem Prompt.ne_lockTimeout {calls : List Exchange} {ended : Except Stop α}
    (hprompt : Prompt task.run) (hcontract : KeepsContract calls)
    (hcalls : task.run.Leads calls (.done ended)) (waitedMs : Nat) :
    ended ≠ .error (.error (.lockTimeout waitedMs)) := by
  obtain ⟨hstore, ⟨-, hended⟩ | ⟨earlier, x, fault, rfl, -, hfault, rfl⟩⟩ := hprompt.of_leads hcalls
  · exact fun h => Bool.false_ne_true (hended _ h)
  · have hx : x ∈ earlier ++ [x] := List.mem_append_right _ List.mem_cons_self
    have hnot : fault.isTimeout = false := by
      rw [← Bool.not_eq_true]
      intro htimeout
      have hbusy : x.isTimeout = true := by
        rw [Exchange.isTimeout, hfault]
        exact htimeout
      have hlock : x.question = .lock := hcontract x hx hbusy
      have honstore := hstore x hx
      rw [hlock] at honstore
      exact honstore
    exact ended_ne_lockTimeout hnot waitedMs

/-- Under the contract tries go in one of these ways. -/
theorem tried_of_leads (hprompt : Prompt task.run) (hcontract : KeepsContract log)
    (h : (attempt delayMs operation (locked task) more).Leads log (.done r)) :
    Tried delayMs operation task more log r := by
  induction more using Nat.strongRecOn generalizing log with
  | ind more ih =>
    rw [attempt_eq] at h
    obtain ⟨ended, first, second, rfl, hfirst, hsecond⟩ := Script.leads_bind.mp h
    rcases leads_locked.mp hfirst with ⟨fault, rfl, rfl⟩ | ⟨calls, rfl, hcalls⟩
    · cases htimeout : fault.isTimeout with
      | true =>
        obtain ⟨waitedMs, rfl⟩ := StoreFault.eq_of_isTimeout htimeout
        cases more with
        | zero =>
          cases hsecond
          exact .exhausted
        | succ more =>
          -- a note, a pause, and the tries that are left
          cases hsecond with
          | step hsecond =>
            cases hsecond with
            | @step _ _ _ log _ hsecond =>
              refine .again (ih more (Nat.lt_succ_self more) (fun x hx => hcontract x ?_) hsecond)
              exact List.mem_append_right _ (List.mem_cons_of_mem _ (List.mem_cons_of_mem _ hx))
      | false =>
        rw [afterTry_of_ne (ended_ne_lockTimeout htimeout)] at hsecond
        cases hsecond
        exact .failed htimeout
    · have hended := hprompt.ne_lockTimeout (fun x hx => hcontract x (List.mem_append_left _
        (List.mem_cons_of_mem _ (List.mem_append_left _ hx)))) hcalls
      rw [afterTry_of_ne hended] at hsecond
      cases hsecond
      rw [List.append_nil]
      exact .held hcalls hended

/-- A try that does not end for want of the lock is the last one. -/
theorem leads_attempt {ended : Except Stop α} (h : task.run.Leads log (.done ended))
    (hended : ∀ waitedMs, ended ≠ .error (.error (.lockTimeout waitedMs))) :
    (attempt delayMs operation task more).Leads log (.done (outcome operation ended)) := by
  rw [attempt_eq]
  refine Script.leads_bind.mpr ⟨ended, log, [], (List.append_nil log).symm, h, ?_⟩
  rw [afterTry_of_ne hended]
  exact .stop _

/-- Each of these is a way in which tries may go. -/
theorem leads_of_tried (h : Tried delayMs operation task more log r) :
    (attempt delayMs operation (locked task) more).Leads log (.done r) := by
  induction h with
  | exhausted => exact .step (.stop _)
  | again _ ih => exact .step (.step (.step ih))
  | failed hnot =>
    exact leads_attempt (leads_locked.mpr (.inl ⟨_, rfl, rfl⟩)) (ended_ne_lockTimeout hnot)
  | held hcalls hended => exact leads_attempt (leads_locked.mpr (.inr ⟨_, rfl, hcalls⟩)) hended

/-- Whatever becomes of the tries, it is what one of them came to. -/
theorem ended_of_attempt (h : (attempt delayMs operation task more).Leads log (.done r)) :
    ∃ calls ended, task.run.Leads calls (.done ended) ∧ r = outcome operation ended := by
  induction more generalizing log with
  | zero =>
    obtain ⟨ended, first, second, rfl, hfirst, hsecond⟩ := Script.leads_bind.mp h
    cases hsecond
    exact ⟨first, ended, hfirst, rfl⟩
  | succ more ih =>
    obtain ⟨ended, first, second, rfl, hfirst, hsecond⟩ := Script.leads_bind.mp h
    split at hsecond
    · cases hsecond with
      | step hsecond =>
        cases hsecond with
        | step hsecond => exact ih hsecond
    · cases hsecond
      exact ⟨first, ended, hfirst, rfl⟩

/-- It never is that the coordinator has halted. -/
theorem Prompt.ne_halted (hprompt : Prompt task.run)
    (h : (attempt delayMs operation (locked task) more).Leads log (.done r)) :
    r ≠ .error .halted := by
  obtain ⟨calls, ended, hcalls, rfl⟩ := ended_of_attempt h
  refine outcome_ne_halted ?_
  rcases leads_locked.mp hcalls with ⟨fault, -, rfl⟩ | ⟨calls, -, hcalls⟩
  · exact ended_ne_halted fault
  · obtain ⟨-, ⟨-, hended⟩ | ⟨earlier, x, fault, -, -, -, rfl⟩⟩ := hprompt.of_leads hcalls
    · exact fun h => Bool.false_ne_true (hended _ h)
    · exact ended_ne_halted fault

end Talk

/-! ## A lock that is busy for a while -/

/-- The answer to a request for the lock. -/
def Exchange.lock? : Exchange → Option (Except StoreFault Unit)
  | ⟨.lock, answer⟩ => some answer
  | _ => none

/-- The answers to the requests for the lock. -/
def locks (log : List Exchange) : List (Except StoreFault Unit) := log.filterMap Exchange.lock?

@[simp] theorem locks_append (xs ys : List Exchange) : locks (xs ++ ys) = locks xs ++ locks ys :=
  List.filterMap_append

theorem locks_eq_nil {log : List Exchange} (h : ∀ x ∈ log, x.question ≠ .lock) : locks log = [] := by
  refine List.filterMap_eq_nil_iff.mpr fun x hx => ?_
  obtain ⟨q, answer⟩ := x
  cases q with
  | lock => exact absurd rfl (h _ hx)
  | _ => rfl

namespace Talk

variable {α : Type} {delayMs : Nat} {operation : String} {task : StoreTask α} {more : Nat}
  {log : List Exchange} {r : Except CommandError α}

/-- Where the lock is not free, after waits like these. -/
def timeouts (waits : List Nat) : List (Except StoreFault Unit) :=
  waits.map fun waitedMs => .error (.failed (.lockTimeout waitedMs))

theorem locks_busy (delayMs : Nat) (waits : List Nat) :
    locks (waits.flatMap (busy delayMs)) = timeouts waits := by
  induction waits with
  | nil => rfl
  | cons waitedMs waits ih =>
    rw [List.flatMap_cons, locks_append, ih]
    rfl

/-- A task meets the lock busy until its tries are used up, or it meets it otherwise before that, and
    goes on as if it had never been busy. -/
theorem Tried.shape (hprompt : Prompt task.run) (h : Tried delayMs operation task more log r) :
    (∃ (waits : List Nat) (waitedMs : Nat), waits.length = more ∧
      log = waits.flatMap (busy delayMs) ++ [⟨.lock, .error (.failed (.lockTimeout waitedMs))⟩] ∧
      r = .error (.lockTimeout waitedMs)) ∨
    ∃ (waits : List Nat) (answer : Except StoreFault Unit) (rest : List Exchange),
      waits.length ≤ more ∧ Exchange.isTimeout ⟨.lock, answer⟩ = false ∧
      log = waits.flatMap (busy delayMs) ++ ⟨.lock, answer⟩ :: rest ∧ locks rest = [] ∧
      Tried delayMs operation task 0 (⟨.lock, answer⟩ :: rest) r := by
  induction h with
  | @exhausted waitedMs => exact .inl ⟨[], waitedMs, rfl, rfl, rfl⟩
  | @again more waitedMs log r _ ih =>
    rcases ih with ⟨waits, last, hlength, rfl, hr⟩ | ⟨waits, answer, rest, hlength, hanswer, rfl, hrest⟩
    · refine .inl ⟨waitedMs :: waits, last, congrArg Nat.succ hlength, ?_, hr⟩
      rw [List.flatMap_cons, List.append_assoc]
    · refine .inr ⟨waitedMs :: waits, answer, rest, Nat.succ_le_succ hlength, hanswer, ?_, hrest⟩
      rw [List.flatMap_cons, List.append_assoc]
  | @failed more fault hnot =>
    exact .inr ⟨[], .error fault, [], Nat.zero_le _, hnot, rfl, rfl, .failed hnot⟩
  | @held more calls ended hcalls hended =>
    refine .inr ⟨[], _, _, Nat.zero_le _, rfl, rfl, ?_, .held hcalls hended⟩
    have hnone : locks calls = [] := by
      refine locks_eq_nil fun x hx hlock => ?_
      have hstore := (hprompt.of_leads hcalls).1 x hx
      rw [hlock] at hstore
      exact hstore
    rw [locks_append, hnone]
    rfl

/-- A task that meets the lock otherwise could have met it busy before, and would go on like that. -/
theorem Tried.delayed {answer : Except StoreFault Unit} {rest : List Exchange} {waits : List Nat}
    (h : Tried delayMs operation task 0 (⟨.lock, answer⟩ :: rest) r)
    (hanswer : Exchange.isTimeout ⟨.lock, answer⟩ = false) (hlength : waits.length ≤ more) :
    Tried delayMs operation task more (waits.flatMap (busy delayMs) ++ ⟨.lock, answer⟩ :: rest) r := by
  induction waits generalizing more with
  | nil =>
    rw [List.flatMap_nil, List.nil_append]
    cases h with
    | exhausted => cases hanswer
    | failed hnot => exact .failed hnot
    | held hcalls hended => exact .held hcalls hended
  | cons waitedMs waits ih =>
    cases more with
    | zero => cases hlength
    | succ more =>
      rw [List.flatMap_cons, List.append_assoc]
      exact .again (ih (Nat.le_of_succ_le_succ hlength))

end Talk

/-! ## Any other failure -/

/-- A failure for another reason than a busy lock has this result, and only such requests follow it. -/
def StopsAt (result : StoreFault → Prop) (p : Request → Prop) (log : List Exchange) : Prop :=
  ∀ earlier x later fault, log = earlier ++ x :: later → x.fault? = some fault →
    fault.isTimeout = false → result fault ∧ ∀ y ∈ later, p y.question

section

variable {result result' : StoreFault → Prop} {p p' : Request → Prop} {x : Exchange}
  {log xs ys : List Exchange}

theorem StopsAt.mono (h : StopsAt result p log) (hresult : ∀ fault, result fault → result' fault)
    (hp : ∀ q, p q → p' q) : StopsAt result' p' log := by
  intro earlier x later fault hlog hfault hnot
  obtain ⟨hends, hlater⟩ := h earlier x later fault hlog hfault hnot
  exact ⟨hresult fault hends, fun y hy => hp _ (hlater y hy)⟩

theorem stopsAt_nil : StopsAt result p [] := by
  intro earlier x later fault hlog
  cases (List.nil_eq_append_iff.mp hlog).2

theorem StopsAt.cons (h : StopsAt result p log)
    (hx : ∀ fault, x.fault? = some fault → fault.isTimeout = false →
      result fault ∧ ∀ y ∈ log, p y.question) : StopsAt result p (x :: log) := by
  intro earlier y later fault hlog hfault hnot
  rcases List.cons_eq_append_iff.mp hlog with ⟨rfl, hrest⟩ | ⟨earlier', rfl, hrest⟩
  · cases hrest
    exact hx fault hfault hnot
  · exact h earlier' y later fault hrest hfault hnot

/-- Exchanges that are no failures may come first. -/
theorem StopsAt.prepend (h : StopsAt result p ys) (hxs : ∀ x ∈ xs, x.fault? = none) :
    StopsAt result p (xs ++ ys) := by
  induction xs with
  | nil => exact h
  | cons x xs ih =>
    refine (ih fun y hy => hxs y (List.mem_cons_of_mem x hy)).cons fun fault hfault => ?_
    rw [hxs x List.mem_cons_self] at hfault
    cases hfault

/-- They may also follow, if they are of the kind that does. -/
theorem StopsAt.append (h : StopsAt result p xs) (hys : ∀ y ∈ ys, y.fault? = none ∧ p y.question) :
    StopsAt result p (xs ++ ys) := by
  intro earlier x later fault hlog hfault hnot
  have hnone : x ∉ ys := by
    intro hx
    rw [(hys x hx).1] at hfault
    cases hfault
  rcases List.append_eq_append_iff.mp hlog with ⟨between, rfl, rfl⟩ | ⟨between, rfl, hrest⟩
  · exact absurd (List.mem_append_right _ List.mem_cons_self) hnone
  · rcases List.cons_eq_append_iff.mp hrest with ⟨rfl, rfl⟩ | ⟨between', rfl, rfl⟩
    · exact absurd List.mem_cons_self hnone
    · obtain ⟨hends, hlater⟩ := h earlier x between' fault rfl hfault hnot
      exact ⟨hends, List.forall_mem_append.mpr ⟨hlater, fun y hy => (hys y hy).2⟩⟩

end

namespace Talk

variable {α : Type} {delayMs : Nat} {operation : String} {task : StoreTask α} {more : Nat}
  {log : List Exchange} {r : Except CommandError α}

/-- A task is answered with the failure that ended it, and only frees the lock after that. -/
theorem Tried.stopsAt (hprompt : Prompt task.run) (h : Tried delayMs operation task more log r) :
    StopsAt (fun fault => r = outcome operation (.error (.ofFault fault))) (fun q => q = .unlock)
      log := by
  induction h with
  | exhausted =>
    refine stopsAt_nil.cons fun fault hfault hnot => ?_
    cases hfault
    cases hnot
  | again _ ih =>
    refine ((ih.cons fun fault hfault _ => ?_).cons fun fault hfault _ => ?_).cons
      fun fault hfault hnot => ?_
    · cases hfault
    · cases hfault
    · cases hfault
      cases hnot
  | failed _ =>
    refine stopsAt_nil.cons fun fault hfault hnot => ?_
    cases hfault
    exact ⟨rfl, fun y hy => (by cases hy)⟩
  | @held more calls ended hcalls hended =>
    have hunlock : ∀ y ∈ ([⟨.unlock, ()⟩] : List Exchange), y.fault? = none ∧ y.question = .unlock :=
      List.forall_mem_singleton.mpr ⟨rfl, rfl⟩
    refine StopsAt.cons (StopsAt.append ?_ hunlock) fun fault hfault _ => ?_
    · -- either no call under the lock has failed, or the last one did
      obtain ⟨-, ⟨hnone, -⟩ | ⟨earlier, x, fault, rfl, hnone, hx, rfl⟩⟩ := hprompt.of_leads hcalls
      · rw [← List.append_nil calls]
        exact stopsAt_nil.prepend hnone
      · refine StopsAt.prepend (stopsAt_nil.cons fun fault' hfault' _ => ?_) hnone
        rw [hx] at hfault'
        cases hfault'
        exact ⟨rfl, fun y hy => (by cases hy)⟩
    · cases hfault

end Talk

end Backlog
