/-
  Commands that meet a busy lock.

  Program: a command asks for the lock in one place, and tries again there as long as the lock is busy
  and the policy allows it.

  Specification: a command that met the lock busy fewer times than it is tried goes as if it had met it
  free at once.  One that never met it free has asked for it as often as the policy says, has left the
  store as it was, and says how long the last try has waited; the coordinator goes on.  After any other
  failure of the store there is no further try (`retried_exactly_once`).

  The crux is that a command depends on its transaction only through the result of that
  (`Orderly.split`).  So a path through the transaction may be put in the place of another one.
-/
import Backlog.Proofs.Coordinator.Attempts
import Backlog.Proofs.Coordinator.Rehearsed
import Backlog.Proofs.Coordinator.Saves

namespace Backlog

open Talk (Tried busy timeouts KeepsContract)

/-! ## A busy lock and the store -/

/-- As long as it is busy, the lock answers like this. -/
theorem Talk.prefix_of_timeouts {ws waits : List Nat} {answer : Except StoreFault Unit}
    {more : List (Except StoreFault Unit)} (hanswer : Exchange.isTimeout ⟨.lock, answer⟩ = false)
    (h : timeouts ws <+: timeouts waits ++ answer :: more) : ws <+: waits := by
  induction ws generalizing waits with
  | nil => exact List.nil_prefix
  | cons w ws ih =>
    cases waits with
    | nil =>
      obtain ⟨hfirst, -⟩ := List.cons_prefix_cons.mp h
      rw [← hfirst] at hanswer
      cases hanswer
    | cons waitedMs waits =>
      obtain ⟨hfirst, hrest⟩ := List.cons_prefix_cons.mp h
      cases hfirst
      exact List.cons_prefix_cons.mpr ⟨rfl, ih hrest⟩

/-- And at one place it answers otherwise. -/
theorem Talk.eq_of_timeouts {ws waits : List Nat} {given answer : Except StoreFault Unit}
    {more : List (Except StoreFault Unit)} (hgiven : Exchange.isTimeout ⟨.lock, given⟩ = false)
    (hanswer : Exchange.isTimeout ⟨.lock, answer⟩ = false)
    (h : timeouts ws ++ [given] <+: timeouts waits ++ answer :: more) : ws = waits ∧ given = answer := by
  induction ws generalizing waits with
  | nil =>
    cases waits with
    | nil => exact ⟨rfl, (List.cons_prefix_cons.mp h).1⟩
    | cons waitedMs waits =>
      obtain ⟨hfirst, -⟩ := List.cons_prefix_cons.mp h
      rw [hfirst] at hgiven
      cases hgiven
  | cons w ws ih =>
    cases waits with
    | nil =>
      obtain ⟨hfirst, -⟩ := List.cons_prefix_cons.mp h
      rw [← hfirst] at hanswer
      cases hanswer
    | cons waitedMs waits =>
      obtain ⟨hfirst, hrest⟩ := List.cons_prefix_cons.mp h
      cases hfirst
      obtain ⟨rfl, rfl⟩ := ih hrest
      exact ⟨rfl, rfl⟩

/-- A try that met the lock busy has not written anything. -/
theorem Talk.quiet_of_mem_busy {delayMs : Nat} {waits : List Nat} {x : Exchange}
    (hx : x ∈ waits.flatMap (busy delayMs)) :
    x.question.Quiet ∨ x.question = .lock ∨ x.question = .unlock := by
  obtain ⟨waitedMs, -, hx⟩ := List.mem_flatMap.mp hx
  rw [busy, List.mem_cons, List.mem_cons, List.mem_singleton] at hx
  rcases hx with rfl | rfl | rfl
  · exact .inr (.inl rfl)
  · exact .inl trivial
  · exact .inl trivial

/-- The store stays as it is if nothing is written. -/
theorem Contents.eq_of_takes {c after : Contents} {log : List Exchange}
    (hlog : ∀ x ∈ log, x.question.Quiet ∨ x.question = .lock ∨ x.question = .unlock)
    (h : Script.World.Takes Contents.Answers c log after) : after = c := by
  induction h with
  | stay => rfl
  | step hx _ ih =>
    rw [ih fun y hy => hlog y (List.mem_cons_of_mem _ hy)]
    exact Contents.eq_of_answers_quiet (hlog _ List.mem_cons_self) hx

theorem Contents.takes_busy {c after : Contents} {delayMs : Nat} {waits : List Nat} :
    Script.World.Takes Contents.Answers c (waits.flatMap (busy delayMs)) after ↔ after = c := by
  refine ⟨Contents.eq_of_takes fun x => Talk.quiet_of_mem_busy, ?_⟩
  rintro rfl
  induction waits with
  | nil => exact .stay _
  | cons waitedMs waits ih => exact .step rfl (.step rfl (.step rfl ih))

/-- What the store makes of exchanges does not depend on how often the lock was busy among them. -/
theorem Contents.takes_delayed {c after : Contents} {delayMs : Nat} {first second : List Exchange}
    (waits waits' : List Nat)
    (h : Script.World.Takes Contents.Answers c
      (first ++ (waits.flatMap (busy delayMs) ++ second)) after) :
    Script.World.Takes Contents.Answers c
      (first ++ (waits'.flatMap (busy delayMs) ++ second)) after := by
  obtain ⟨between, hfirst, hrest⟩ := Script.World.takes_append.mp h
  obtain ⟨then', hbusy, hsecond⟩ := Script.World.takes_append.mp hrest
  obtain rfl := Contents.takes_busy.mp hbusy
  refine Script.World.takes_append.mpr ⟨_, hfirst, Script.World.takes_append.mpr ⟨_, ?_, hsecond⟩⟩
  exact Contents.takes_busy.mpr rfl

namespace Coordinator

variable {settings : Settings} {now : Stamp} {command : Command}

/-! ## The place of the transaction -/

section

variable {S : Type} {s : Talk (Except CommandError command.Answer × S)}
  {p : Except CommandError command.Answer × S} {log : List Exchange}

/-- The path is one through the transaction, with a quiet one before it and one outside of the store
    after it, and any other path through the transaction with the same result could be in its place. -/
def Through (settings : Settings) (now : Stamp) (command : Command) {S : Type}
    (s : Talk (Except CommandError command.Answer × S)) (p : Except CommandError command.Answer × S)
    (log : List Exchange) : Prop :=
  ∃ head result first mid last, log = first ++ (mid ++ last) ∧ (∀ x ∈ first, x.question.Quiet) ∧
    (∀ x ∈ last, x.question.Outside) ∧ command.Reports head result p.1 ∧
    (command.transaction settings now head).Leads mid (.done result) ∧
    ∀ mid', (command.transaction settings now head).Leads mid' (.done result) →
      s.Leads (first ++ (mid' ++ last)) (.done p)

/-- A quiet exchange may come first. -/
theorem Through.cons {q : Request} {next : q.Answer → Talk (Except CommandError command.Answer × S)}
    {answer : q.Answer} (hq : q.Quiet) (h : Through settings now command (next answer) p log) :
    Through settings now command (.ask q next) p (⟨q, answer⟩ :: log) := by
  obtain ⟨head, result, first, mid, last, rfl, hfirst, hlast, hreports, hmid, hother⟩ := h
  refine ⟨head, result, ⟨q, answer⟩ :: first, mid, last, rfl, ?_, hlast, hreports, hmid, ?_⟩
  · exact List.forall_mem_cons.mpr ⟨hq, hfirst⟩
  · exact fun mid' hmid' => .step (hother mid' hmid')

/-- A whole path through a command is quiet, or it is one through its transaction. -/
theorem Orderly.through (hs : Orderly settings now command s) (h : s.Leads log (.done p)) :
    (∀ x ∈ log, x.question.Quiet) ∨ Through settings now command s p log := by
  induction hs generalizing log with
  | ends =>
    cases h
    exact .inl fun _ hx => (by cases hx)
  | outside hq _ ih =>
    cases h with
    | step h =>
      have hquiet := Request.quiet_of_outside hq
      exact (ih _ h).imp (fun hlog => List.forall_mem_cons.mpr ⟨hquiet, hlog⟩) (Through.cons hquiet)
  | looks _ _ ih =>
    cases h with
    | step h =>
      exact (ih _ h).imp (fun hlog => List.forall_mem_cons.mpr ⟨trivial, hlog⟩) (Through.cons trivial)
  | transacts head _ hk =>
    obtain ⟨result, mid, last, rfl, hmid, hlast⟩ := Script.leads_bind.mp h
    obtain ⟨houtside, hreports⟩ := (hk result).of_leads hlast
    have hnone : ∀ x ∈ ([] : List Exchange), x.question.Quiet := fun _ hx => (by cases hx)
    refine .inr ⟨head, result, [], mid, last, rfl, hnone, houtside, hreports, hmid, ?_⟩
    exact fun mid' hmid' => Script.leads_bind.mpr ⟨result, mid', last, rfl, hmid', hlast⟩

/-! ## A failure of the store -/

/-- A transaction that keeps to the contract goes in tries. -/
theorem tried_of_transaction {head : Option String} {result : Except CommandError command.Value}
    (h : (command.transaction settings now head).Leads log (.done result))
    (hcontract : KeepsContract log) :
    Tried settings.retry.delayMs command.operation
      (transact command.readsArchive (command.decide settings now head))
      (settings.retry.attempts - 1) log result :=
  Talk.tried_of_leads (Talk.prompt_command settings now head command) hcontract h

theorem Orderly.stopsAt (hs : Orderly settings now command s) (h : s.Leads log (.done p))
    (hcontract : KeepsContract log) :
    StopsAt (fun fault => p.1 = Talk.outcome command.operation (.error (.ofFault fault)))
      (fun q => q.Outside ∨ q = .unlock) log := by
  induction hs generalizing log with
  | ends =>
    cases h
    exact stopsAt_nil
  | outside hq _ ih =>
    cases h with
    | @step _ _ answer _ _ h =>
      refine (ih _ h fun x hx => hcontract x (List.mem_cons_of_mem _ hx)).cons fun fault hfault => ?_
      rw [Exchange.fault?_of_outside (x := ⟨_, answer⟩) hq] at hfault
      cases hfault
  | looks hfailed _ ih =>
    cases h with
    | @step _ _ answer _ _ h =>
      refine (ih _ h fun x hx => hcontract x (List.mem_cons_of_mem _ hx)).cons ?_
      intro fault hfault hnot
      rcases answer with fault' | items
      · cases hfault
        obtain ⟨houtside, hreply⟩ := (hfailed fault hnot).of_leads h
        exact ⟨hreply, fun y hy => .inl (houtside y hy)⟩
      · cases hfault
  | transacts head _ hk =>
    obtain ⟨result, mid, last, rfl, hmid, hlast⟩ := Script.leads_bind.mp h
    obtain ⟨houtside, hreports⟩ := (hk result).of_leads hlast
    have htried := tried_of_transaction hmid fun x hx => hcontract x (List.mem_append_left _ hx)
    have hprompt := Talk.prompt_command settings now head command
    refine StopsAt.append ((htried.stopsAt hprompt).mono ?_ ?_) ?_
    · -- the reply reports the error that the transaction ended in
      intro fault hresult
      obtain ⟨e, he⟩ := Talk.outcome_error command.operation (.ofFault fault)
      rw [hresult, he] at hreports
      rw [he]
      exact Command.eq_of_reports_error hreports
    · exact fun q hq => .inr hq
    · exact fun y hy => ⟨Exchange.fault?_of_outside (houtside y hy), .inl (houtside y hy)⟩

end

/-- A command is answered with the failure of the store that ended it, and only frees the lock after
    that. -/
theorem stopsAt_of_leads {c c' : Coordinator} {reply : Except CommandError command.Answer}
    {log : List Exchange} (hcommand : (submit settings now command c).Leads log (.done (reply, c')))
    (hcontract : KeepsContract log) :
    StopsAt (fun fault => reply = Talk.outcome command.operation (.error (.ofFault fault)))
      (fun q => q.Outside ∨ q = .unlock) log := by
  cases hrunning : c.running with
  | true => exact (orderly_submit command hrunning).stopsAt hcommand hcontract
  | false =>
    obtain ⟨rfl, -⟩ := halted_of_leads hrunning hcommand
    exact stopsAt_nil

/-! ## How often the lock is asked for -/

/-- A command never asks for the lock, or finds it busy until its tries are used up, or finds it
    otherwise before that, and then goes as if it had been busy for any shorter while. -/
theorem locks_of_leads {c c' : Coordinator} {reply : Except CommandError command.Answer}
    {log : List Exchange} (hrunning : c.running = true)
    (hcommand : (submit settings now command c).Leads log (.done (reply, c')))
    (hcontract : KeepsContract log) :
    locks log = [] ∨
    (∃ (waits : List Nat) (waitedMs : Nat), waits.length + 1 = max settings.retry.attempts 1 ∧
      locks log = timeouts (waits ++ [waitedMs]) ∧ reply = .error (.lockTimeout waitedMs) ∧
      ∀ x ∈ log, x.question.Quiet ∨ x.question = .lock ∨ x.question = .unlock) ∨
    ∃ (waits : List Nat) (answer : Except StoreFault Unit) (first second : List Exchange),
      waits.length < max settings.retry.attempts 1 ∧
      Exchange.isTimeout ⟨.lock, answer⟩ = false ∧ locks log = timeouts waits ++ [answer] ∧
      log = first ++ (waits.flatMap (busy settings.retry.delayMs) ++ ⟨.lock, answer⟩ :: second) ∧
      ∀ waits' : List Nat, waits'.length < max settings.retry.attempts 1 →
        (submit settings now command c).Leads
          (first ++ (waits'.flatMap (busy settings.retry.delayMs) ++ ⟨.lock, answer⟩ :: second))
          (.done (reply, c')) := by
  have hquiet : ∀ {log : List Exchange}, (∀ x ∈ log, x.question.Quiet) → locks log = [] := by
    intro log hlog
    refine locks_eq_nil fun x hx hlock => ?_
    have hx := hlog x hx
    rw [hlock] at hx
    exact hx
  rcases (orderly_submit command hrunning).through hcommand with hlog |
    ⟨head, result, first, mid, last, rfl, hfirst, hlast, hreports, hmid, hother⟩
  · exact .inl (hquiet hlog)
  · have hlast' : ∀ x ∈ last, x.question.Quiet := fun x hx => Request.quiet_of_outside (hlast x hx)
    have hlocks : locks (first ++ (mid ++ last)) = locks mid := by
      rw [locks_append, locks_append, hquiet hfirst, hquiet hlast', List.nil_append, List.append_nil]
    rw [hlocks]
    have htried := tried_of_transaction hmid fun x hx =>
      hcontract x (List.mem_append_right _ (List.mem_append_left _ hx))
    rcases htried.shape (Talk.prompt_command settings now head command) with
      ⟨waits, waitedMs, hlength, rfl, rfl⟩ | ⟨waits, answer, rest, hlength, hanswer, rfl, hrest, hthen⟩
    · refine .inr (.inl ⟨waits, waitedMs, by omega, ?_, Command.eq_of_reports_error hreports, ?_⟩)
      · rw [locks_append, Talk.locks_busy, timeouts, timeouts, List.map_append]
        rfl
      · intro x hx
        rcases List.mem_append.mp hx with hx | hx
        · exact .inl (hfirst x hx)
        rcases List.mem_append.mp hx with hx | hx
        · rcases List.mem_append.mp hx with hx | hx
          · exact Talk.quiet_of_mem_busy hx
          · exact .inr (.inl (by rw [List.mem_singleton.mp hx]))
        · exact .inl (hlast' x hx)
    · refine .inr (.inr ⟨waits, answer, first, rest ++ last, by omega, hanswer, ?_, ?_, ?_⟩)
      · rw [locks_append, Talk.locks_busy]
        exact congrArg (fun others => timeouts waits ++ answer :: others) hrest
      · rw [List.append_assoc, List.cons_append]
      · intro waits' hlength'
        have htried' : Tried settings.retry.delayMs command.operation
            (transact command.readsArchive (command.decide settings now head))
            (settings.retry.attempts - 1)
            (waits'.flatMap (busy settings.retry.delayMs) ++ ⟨.lock, answer⟩ :: rest) result :=
          hthen.delayed hanswer (by omega)
        have hmid' := hother _ (Talk.leads_of_tried htried')
        rw [List.append_assoc, List.cons_append] at hmid'
        exact hmid'

/-- A command that meets the lock busy goes as if it had not, or ends for want of it.

    Let the store keep to its contract, so that a busy lock is reported only when the lock is asked for.
    A command has saved once if it is accepted and is one that writes, and else not at all.

    Let the lock be busy for these waits, one after the other, and then answer otherwise.  If they are
    fewer than the tries, then with the same other answers the command would have been replied the same,
    and have made the same of the store, after any other number of waits, none among them.  If they are
    as many or more, it asks for the lock as often as it is tried, has left the store as it was, and
    replies how long the last try has waited, and the coordinator goes on.

    Any other failure of the store is what is replied, and after it the lock is freed at most. -/
theorem retried_exactly_once {c c' : Coordinator} {reply : Except CommandError command.Answer}
    {log : List Exchange} {before after : Contents}
    (hcommand : (submit settings now command c).Leads log (.done (reply, c')))
    (hstore : Script.World.Takes Contents.Answers before log after) (hcontract : KeepsContract log) :
    savesMade log = (if reply.isOk && command.writes then 1 else 0) ∧
    (∀ waits (answer : Except StoreFault Unit) others, locks log ≠ [] →
      locks log <+: timeouts waits ++ answer :: others →
      Exchange.isTimeout ⟨.lock, answer⟩ = false →
      (waits.length < max settings.retry.attempts 1 →
        locks log = timeouts waits ++ [answer] ∧
        ∃ first second : List Exchange,
          log = first ++ (waits.flatMap (busy settings.retry.delayMs) ++ ⟨.lock, answer⟩ :: second) ∧
          ∀ waits' : List Nat, waits'.length < max settings.retry.attempts 1 →
            (submit settings now command c).Leads
              (first ++ (waits'.flatMap (busy settings.retry.delayMs) ++ ⟨.lock, answer⟩ :: second))
              (.done (reply, c')) ∧
            Script.World.Takes Contents.Answers before
              (first ++ (waits'.flatMap (busy settings.retry.delayMs) ++ ⟨.lock, answer⟩ :: second))
              after) ∧
      (max settings.retry.attempts 1 ≤ waits.length →
        (locks log).length = max settings.retry.attempts 1 ∧ after = before ∧
        (∃ waitedMs, waits[max settings.retry.attempts 1 - 1]? = some waitedMs ∧
          reply = .error (.lockTimeout waitedMs)) ∧
        c'.running = true)) ∧
    ∀ earlier x later fault, log = earlier ++ x :: later → x.fault? = some fault →
      fault.isTimeout = false →
      reply = Talk.outcome command.operation (.error (.ofFault fault)) ∧
        ∀ y ∈ later, y.question.Outside ∨ y.question = .unlock := by
  refine ⟨savesMade_of_leads hcommand hstore, ?_, stopsAt_of_leads hcommand hcontract⟩
  intro waits answer others hasked hlocks hanswer
  have hrunning : c.running = true := by
    rw [← Bool.not_eq_false]
    intro hhalted
    obtain ⟨rfl, -⟩ := halted_of_leads hhalted hcommand
    exact hasked rfl
  rcases locks_of_leads hrunning hcommand hcontract with hnone |
    ⟨ws, waitedMs, hlength, hlog, hreply, hquiet⟩ |
    ⟨ws, given, first, second, hlength, hgiven, hlog, rfl, hother⟩
  · exact absurd hnone hasked
  · rw [hlog] at hlocks
    have hprefix := Talk.prefix_of_timeouts hanswer hlocks
    have hle : ws.length + 1 ≤ waits.length := by
      have h := hprefix.length_le
      rwa [List.length_append] at h
    refine ⟨fun hless => by omega, fun _ => ?_⟩
    refine ⟨?_, Contents.eq_of_takes hquiet hstore, ⟨waitedMs, ?_, hreply⟩, ?_⟩
    · rw [hlog, timeouts, List.length_map, List.length_append]
      exact hlength
    · rw [← hlength, Nat.add_sub_cancel]
      obtain ⟨more, rfl⟩ := hprefix
      rw [List.append_assoc, List.getElem?_append_right (Nat.le_refl _), Nat.sub_self]
      rfl
    · rw [running_of_leads hcommand, hrunning, hreply]
      rfl
  · rw [hlog] at hlocks
    obtain ⟨rfl, rfl⟩ := Talk.eq_of_timeouts hgiven hanswer hlocks
    refine ⟨fun _ => ⟨hlog, first, second, rfl, fun waits' hlength' => ⟨hother waits' hlength', ?_⟩⟩, ?_⟩
    · exact Contents.takes_delayed _ _ hstore
    · intro hmore
      omega

/-- The lock of a store with a done item is busy so many times. -/
def busyStore (times : Nat) : Rehearsal := { Rehearsal.sample with lockFailures := times }

/-- What is asked and answered when the item is archived there. -/
def busyLog (times : Nat) : List Exchange :=
  rehearsedLog {} ⟨1, 0⟩ (.archive "WRK-1") {} (busyStore times)

/-- What becomes of that. -/
def busyEnd (times : Nat) : (Except CommandError Unit × Coordinator) × Rehearsal :=
  rehearsed {} ⟨1, 0⟩ (.archive "WRK-1") {} (busyStore times)

/-- An item is archived at the third try as it would be at the first one; a lock that stays busy is not
    asked for a fourth time. -/
theorem retried_exactly_once_archive :
    savesMade (busyLog 2) = 1 ∧
    (∃ first second : List Exchange,
      busyLog 2 = first ++ ([5, 5].flatMap (busy 1000) ++ ⟨.lock, .ok ()⟩ :: second) ∧
      (submit {} ⟨1, 0⟩ (.archive "WRK-1") {}).Leads (first ++ ⟨.lock, .ok ()⟩ :: second)
        (.done (busyEnd 2).1)) ∧
    (locks (busyLog 9)).length = 3 ∧ (busyEnd 9).2.contents = (busyStore 9).contents ∧
    (busyEnd 9).1.1 = .error (.lockTimeout 5) ∧ (busyEnd 9).1.2.running = true := by
  have hlate : busyLog 2 = [5, 5].flatMap (busy 1000) ++ [⟨.lock, .ok ()⟩, ⟨.load, .ok [Item.finished]⟩,
      ⟨.append Item.finished, .ok ()⟩, ⟨.save [], .ok ()⟩, ⟨.unlock, ()⟩, ⟨.stageStore, .ok ()⟩] := rfl
  have hnever : busyLog 9 = [5, 5].flatMap (busy 1000)
      ++ [⟨.lock, .error (.failed (.lockTimeout 5))⟩, ⟨.note .retryableError, ()⟩] := rfl
  have hlocks : locks (busyLog 2) = timeouts [5, 5] ++ [.ok ()] := rfl
  have hlocks' : locks (busyLog 9) = timeouts [5, 5, 5] := rfl
  have hcontract : KeepsContract (busyLog 2) := by
    rw [hlate]
    simp [KeepsContract, busy, Exchange.isTimeout, Exchange.fault?, Request.fault?]
  have hcontract' : KeepsContract (busyLog 9) := by
    rw [hnever]
    simp [KeepsContract, busy, Exchange.isTimeout, Exchange.fault?, Request.fault?]
  obtain ⟨hsaves, hdelayed, -⟩ := retried_exactly_once (leads_rehearsed ..)
    (takes_rehearsed {} ⟨1, 0⟩ (.archive "WRK-1") {} (busyStore 2)) hcontract
  obtain ⟨-, hexhausted, -⟩ := retried_exactly_once (leads_rehearsed ..)
    (takes_rehearsed {} ⟨1, 0⟩ (.archive "WRK-1") {} (busyStore 9)) hcontract'
  have hasked : locks (busyLog 2) ≠ [] := by
    rw [hlocks]
    simp
  have hasked' : locks (busyLog 9) ≠ [] := by
    rw [hlocks']
    simp [timeouts]
  obtain ⟨-, first, second, hlog, hother⟩ := (hdelayed [5, 5] (.ok ()) [] hasked
    ⟨[], (List.append_nil _).trans hlocks⟩ rfl).1 (by decide)
  have hprefix : locks (busyLog 9) <+: timeouts [5, 5, 5] ++ [.ok ()] :=
    hlocks' ▸ List.prefix_append _ _
  obtain ⟨hcount, hstore, ⟨waitedMs, hwaited, hreply⟩, hrunning⟩ :=
    (hexhausted [5, 5, 5] (.ok ()) [] hasked' hprefix rfl).2 (by decide)
  cases hwaited
  exact ⟨hsaves, ⟨first, second, hlog, (hother [] (by decide)).1⟩, hcount, hstore, hreply, hrunning⟩

end Coordinator

end Backlog
