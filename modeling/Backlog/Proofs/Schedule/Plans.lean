/-
  What is in a plan.

  Program: a plan lists the signals of the items, then what the candidates that were offered a slot do
  with it, and beside both the items that were passed over.

  Specification: everything in a plan has an item that it is about.  An action is the signal of that
  item, or what it proposes as a candidate whose dependencies are met (`mem_actions_tick`); an item
  without a runnable phase proposes nothing (`mem_skipped_noRunnablePhase`).  A candidate is an item
  that nothing keeps from being worked on (`standing_eq_candidate_iff`).

  Whether an item is a candidate, and what it proposes, is settled before the first slot is given
  away, so none of this depends on the order of the candidates.  What does depend on it is the list
  of decisions: the decision about a candidate is made on the slots that those before it left
  (`mem_decisions_iff`), and a plan is that list told apart (`offerAll_eq`).
-/
import Backlog.Progress
import Backlog.Item.Update
import Backlog.Schedule.Tick

namespace Backlog

namespace Schedule

variable {items : List Item} {running : Running} {limits : Limits} {pipelines : Pipelines}
  {item : Item} {action : Action}

/-! ## Order -/

@[simp] theorem mem_byAge : item ∈ byAge items ↔ item ∈ items := List.mem_mergeSort

@[simp] theorem mem_byKeyDown {key : Item → Option Nat} : item ∈ byKeyDown key items ↔ item ∈ items :=
  List.mem_mergeSort

theorem byAge_perm (items : List Item) : (byAge items).Perm items := List.mergeSort_perm items _

theorem byKeyDown_perm (key : Item → Option Nat) (items : List Item) :
    (byKeyDown key items).Perm items := List.mergeSort_perm items _

/-- Items that come in order stay as they are. -/
theorem byAge_of_pairwise (h : items.Pairwise fun a b => olderFirst a b = true) :
    byAge items = items := List.mergeSort_of_pairwise h

/-- A key as a number, of which none is the lowest. -/
def rank (key : Option Nat) : Nat := key.elim 0 Nat.succ

theorem rank_lt_rank_iff {m n : Option Nat} : rank m < rank n ↔ m < n := by
  cases m <;> cases n <;> simp [rank]

theorem byKeyDown_eq (key : Item → Option Nat) (items : List Item) :
    byKeyDown key items = items.mergeSort fun a b => rank (key b) ≤ rank (key a) := by
  rw [byKeyDown]
  congr 1
  funext a b
  simp only [decide_eq_decide]
  cases key a <;> cases key b <;> exact Iff.rfl

theorem byKeyDown_of_pairwise {key : Item → Option Nat}
    (h : items.Pairwise fun a b => rank (key b) ≤ rank (key a)) : byKeyDown key items = items := by
  rw [byKeyDown_eq]
  exact List.mergeSort_of_pairwise (h.imp decide_eq_true)

/-! ## Standings -/

/-- Nothing keeps the item from being worked on: it is not in flight, neither done nor blocked, and
    carries no signal. -/
structure IsOpen (running : Running) (item : Item) : Prop where
  idle : running.contains item.id = false
  unfinished : item.status ≠ .done
  unblocked : item.status ≠ .blocked
  unmerged : item.mergeInto = none
  untriaged : item.triageRequested = false

/-- The ways in which an item may stand, and when it stands so. -/
inductive Stands (items : List Item) (running : Running) (item : Item) : Standing → Prop
  | inFlight : running.contains item.id = true → Stands items running item (.skip .alreadyRunning)
  | finished : running.contains item.id = false → item.status = .done →
      Stands items running item (.act (.archive item.id))
  | answered {context : String} : running.contains item.id = false → item.status = .blocked →
      item.unblockContext = some context →
      Stands items running item (.act (.unblock item.id context))
  | waiting : running.contains item.id = false → item.status = .blocked →
      item.unblockContext = none → Stands items running item .rest
  | leaving {target : String} : running.contains item.id = false → item.mergeInto = some target →
      target ≠ item.id → items.any (fun i => i.id == target) = true →
      Stands items running item (.act (.merge item.id target))
  | astray {target : String} : running.contains item.id = false → item.mergeInto = some target →
      ¬ (target ≠ item.id ∧ items.any (fun i => i.id == target) = true) →
      Stands items running item (.skip (.mergeTargetMissing target))
  | doubted : running.contains item.id = false → item.triageRequested = true →
      Stands items running item (.act (.triage item.id))
  | open_ : IsOpen running item → Stands items running item .candidate

theorem stands (items : List Item) (running : Running) (item : Item) :
    Stands items running item (standing items running item) := by
  cases hidle : running.contains item.id with
  | true =>
    rw [standing, if_pos hidle]
    exact .inFlight hidle
  | false =>
    cases hstatus : item.status with
    | done =>
      simp only [standing, hidle, hstatus, Bool.false_eq_true, if_false]
      exact .finished hidle hstatus
    | blocked =>
      simp only [standing, hidle, hstatus, Bool.false_eq_true, if_false]
      split
      · next hcontext => exact .answered hidle hstatus hcontext
      · next hcontext => exact .waiting hidle hstatus hcontext
    | _ =>
      simp only [standing, hidle, hstatus, Bool.false_eq_true, if_false]
      split
      · next target hmerge =>
        split
        · next htarget => exact .leaving hidle hmerge htarget.1 htarget.2
        · next htarget => exact .astray hidle hmerge htarget
      · next hmerge =>
        split
        · next htriage => exact .doubted hidle htriage
        · next htriage =>
          refine .open_ ⟨hidle, ?_, ?_, hmerge, Bool.eq_false_iff.mpr htriage⟩
          · rw [hstatus]
            rintro ⟨⟩
          · rw [hstatus]
            rintro ⟨⟩

/-- The candidates are the items that nothing keeps from being worked on. -/
theorem standing_eq_candidate_iff :
    standing items running item = .candidate ↔ IsOpen running item := by
  have hstands := stands items running item
  constructor
  · intro h
    rw [h] at hstands
    cases hstands with
    | open_ hopen => exact hopen
  · intro hopen
    generalize standing items running item = s at hstands
    cases hstands with
    | inFlight hbusy => exact absurd hopen.idle (by rw [hbusy]; rintro ⟨⟩)
    | finished _ hdone => exact absurd hdone hopen.unfinished
    | answered _ hblocked => exact absurd hblocked hopen.unblocked
    | waiting _ hblocked => exact absurd hblocked hopen.unblocked
    | leaving _ hmerge => exact absurd hopen.unmerged (by rw [hmerge]; rintro ⟨⟩)
    | astray _ hmerge => exact absurd hopen.unmerged (by rw [hmerge]; rintro ⟨⟩)
    | doubted _ htriage => exact absurd hopen.untriaged (by rw [htriage]; rintro ⟨⟩)
    | open_ => rfl

/-- A signal is about an item that is not in flight, and takes no slot. -/
theorem signal_of_standing (h : standing items running item = .act action) :
    running.contains item.id = false ∧ action.item = item.id ∧ action.takesCapacity = false ∧
      action.isDestructive = false := by
  have hstands := stands items running item
  rw [h] at hstands
  cases hstands with
  | finished hidle => exact ⟨hidle, rfl, rfl, rfl⟩
  | answered hidle => exact ⟨hidle, rfl, rfl, rfl⟩
  | leaving hidle => exact ⟨hidle, rfl, rfl, rfl⟩
  | doubted hidle => exact ⟨hidle, rfl, rfl, rfl⟩

theorem mem_actions_signals {ordered : List Item} :
    action ∈ (signals items running ordered).actions ↔
      ∃ item ∈ ordered, standing items running item = .act action := by
  rw [signals, List.mem_filterMap]
  refine exists_congr fun i => and_congr_right fun _ => ?_
  cases standing items running i <;> simp

theorem mem_skipped_signals {ordered : List Item} {id : String} {reason : SkipReason} :
    (id, reason) ∈ (signals items running ordered).skipped ↔
      ∃ item ∈ ordered, item.id = id ∧ standing items running item = .skip reason := by
  rw [signals, List.mem_filterMap]
  refine exists_congr fun i => and_congr_right fun _ => ?_
  cases standing items running i <;> simp

/-! ## Candidates -/

theorem mem_candidates :
    item ∈ candidates items running pipelines ↔ item ∈ items ∧ IsOpen running item := by
  simp only [candidates, List.mem_append, mem_byKeyDown, List.mem_filter, mem_byAge,
    decide_eq_true_eq, standing_eq_candidate_iff]
  constructor
  · rintro (((⟨h, -⟩ | ⟨h, -⟩) | ⟨h, -⟩) | ⟨h, -⟩) <;> exact h
  · rintro ⟨hitem, hopen⟩
    -- an item that is neither done nor blocked is in one of the four lists
    cases hstatus : item.status with
    | done => exact absurd hstatus hopen.unfinished
    | blocked => exact absurd hstatus hopen.unblocked
    | _ => simp [hitem, hopen]

/-! ## Proposals -/

/-- What a candidate proposes, it proposes for itself, and it takes a slot. -/
theorem proposal_takes (h : proposal pipelines item = some action) :
    action.item = item.id ∧ action.takesCapacity = true := by
  rw [proposal] at h
  split at h
  · obtain ⟨phase, -, rfl⟩ := Option.map_eq_some_iff.mp h
    exact ⟨rfl, rfl⟩
  · obtain ⟨phase, -, rfl⟩ := Option.map_eq_some_iff.mp h
    exact ⟨rfl, rfl⟩
  · cases h
    exact ⟨rfl, rfl⟩

/-- The slots that are left once an action has taken what it needs. -/
def Capacity.after (free : Capacity) (action : Action) : Capacity where
  wip := free.wip - 1
  exclusive := free.exclusive - if action.isDestructive then 1 else 0

section

variable {free : Capacity}

theorem offer_of_no_proposal (h : proposal pipelines item = none) :
    offer items pipelines free item = (.error .noRunnablePhase, free) := by
  rw [offer, h]

theorem offer_of_unmet (h : proposal pipelines item = some action)
    (hunmet : unmetDependencies items item ≠ []) :
    offer items pipelines free item
      = (.error (.unmetDependencies (unmetDependencies items item)), free) := by
  have hsome : (!(unmetDependencies items item).isEmpty) = true := by simpa using hunmet
  simp only [offer, h, if_pos hsome]

theorem offer_of_full (h : proposal pipelines item = some action)
    (hmet : unmetDependencies items item = []) (hfull : free.wip = 0) :
    offer items pipelines free item = (.error .wipLimit, free) := by
  simp [offer, h, hmet, hfull]

theorem offer_of_not_exclusive (h : proposal pipelines item = some action)
    (hmet : unmetDependencies items item = []) (hfree : 0 < free.wip)
    (hdestructive : action.isDestructive = true) (hfull : free.exclusive = 0) :
    offer items pipelines free item = (.error .exclusiveLimit, free) := by
  simp [offer, h, hmet, Nat.ne_of_gt hfree, hdestructive, hfull]

theorem offer_of_free (h : proposal pipelines item = some action)
    (hmet : unmetDependencies items item = []) (hfree : 0 < free.wip)
    (hexclusive : action.isDestructive = true → 0 < free.exclusive) :
    offer items pipelines free item = (.ok action, free.after action) := by
  cases hdestructive : action.isDestructive with
  | false => simp [offer, h, hmet, Nat.ne_of_gt hfree, hdestructive, Capacity.after]
  | true =>
    have hleft : free.exclusive ≠ 0 := Nat.ne_of_gt (hexclusive hdestructive)
    simp [offer, h, hmet, Nat.ne_of_gt hfree, hdestructive, hleft, Capacity.after]

/-- Why an item is offered a slot in vain. -/
inductive Refused (items : List Item) (pipelines : Pipelines) (free : Capacity) (item : Item) :
    SkipReason → Prop
  | idle : proposal pipelines item = none → Refused items pipelines free item .noRunnablePhase
  | waiting {wish : Action} : proposal pipelines item = some wish →
      unmetDependencies items item ≠ [] →
      Refused items pipelines free item (.unmetDependencies (unmetDependencies items item))
  | full {wish : Action} : proposal pipelines item = some wish →
      unmetDependencies items item = [] → free.wip = 0 →
      Refused items pipelines free item .wipLimit
  | shut {wish : Action} : proposal pipelines item = some wish →
      unmetDependencies items item = [] → 0 < free.wip → wish.isDestructive = true →
      free.exclusive = 0 → Refused items pipelines free item .exclusiveLimit

/-- A slot is given for what is proposed, to an item whose dependencies are met, as long as there are
    slots of the kinds that are needed. Whoever gets nothing takes nothing. -/
theorem offer_inv {decision : Except SkipReason Action} {left : Capacity}
    (h : offer items pipelines free item = (decision, left)) :
    (∃ action, decision = .ok action ∧ left = free.after action ∧
      proposal pipelines item = some action ∧ unmetDependencies items item = [] ∧ 0 < free.wip ∧
        (action.isDestructive = true → 0 < free.exclusive)) ∨
    (∃ reason, decision = .error reason ∧ left = free ∧
      Refused items pipelines free item reason) := by
  cases hproposal : proposal pipelines item with
  | none =>
    rw [offer_of_no_proposal hproposal] at h
    cases h
    exact .inr ⟨_, rfl, rfl, .idle hproposal⟩
  | some action =>
    by_cases hmet : unmetDependencies items item = []
    · rcases Nat.eq_zero_or_pos free.wip with hfull | hfree
      · rw [offer_of_full hproposal hmet hfull] at h
        cases h
        exact .inr ⟨_, rfl, rfl, .full hproposal hmet hfull⟩
      by_cases hexclusive : action.isDestructive = true → 0 < free.exclusive
      · rw [offer_of_free hproposal hmet hfree hexclusive] at h
        cases h
        exact .inl ⟨action, rfl, rfl, rfl, hmet, hfree, hexclusive⟩
      · obtain ⟨hdestructive, hnone⟩ := Classical.not_imp.mp hexclusive
        have hshut := Nat.eq_zero_of_not_pos hnone
        rw [offer_of_not_exclusive hproposal hmet hfree hdestructive hshut] at h
        cases h
        exact .inr ⟨_, rfl, rfl, .shut hproposal hmet hfree hdestructive hshut⟩
    · rw [offer_of_unmet hproposal hmet] at h
      cases h
      exact .inr ⟨_, rfl, rfl, .waiting hproposal hmet⟩

/-- What is granted was proposed by a candidate whose dependencies are met, when there was a slot. -/
theorem proposal_of_granted (h : (offer items pipelines free item).1 = .ok action) :
    proposal pipelines item = some action ∧ unmetDependencies items item = [] ∧ 0 < free.wip ∧
      (action.isDestructive = true → 0 < free.exclusive) := by
  obtain ⟨_, hdecision, -, hgranted⟩ | ⟨_, hdecision, -⟩ := offer_inv (Prod.eta _).symm
  · cases hdecision.symm.trans h
    exact hgranted
  · cases hdecision.symm.trans h

theorem offer_of_granted (h : (offer items pipelines free item).1 = .ok action) :
    offer items pipelines free item = (.ok action, free.after action) := by
  obtain ⟨_, hdecision, hleft, -⟩ | ⟨_, hdecision, -⟩ := offer_inv (Prod.eta _).symm
  · cases hdecision.symm.trans h
    exact Prod.ext h hleft
  · cases hdecision.symm.trans h

theorem refused_of_error {reason : SkipReason}
    (h : (offer items pipelines free item).1 = .error reason) :
    Refused items pipelines free item reason := by
  obtain ⟨_, hdecision, -⟩ | ⟨_, hdecision, -, hrefused⟩ := offer_inv (Prod.eta _).symm
  · cases hdecision.symm.trans h
  · cases hdecision.symm.trans h
    exact hrefused

theorem offer_of_error {reason : SkipReason}
    (h : (offer items pipelines free item).1 = .error reason) :
    offer items pipelines free item = (.error reason, free) := by
  obtain ⟨_, hdecision, -⟩ | ⟨_, -, hleft, -⟩ := offer_inv (Prod.eta _).symm
  · cases hdecision.symm.trans h
  · exact Prod.ext h hleft

end

/-! ## Offers in turn -/

/-- What is decided about each item in turn. -/
def decisions (items : List Item) (pipelines : Pipelines) :
    Capacity → List Item → List (Item × Except SkipReason Action)
  | _, [] => []
  | free, item :: rest =>
    let (decision, left) := offer items pipelines free item
    (item, decision) :: decisions items pipelines left rest

theorem decisions_cons {free left : Capacity} {decision : Except SkipReason Action}
    {rest : List Item} (h : offer items pipelines free item = (decision, left)) :
    decisions items pipelines free (item :: rest)
      = (item, decision) :: decisions items pipelines left rest := by
  rw [decisions, h]

/-- The slots that are left after offers in turn. -/
def remaining (items : List Item) (pipelines : Pipelines) (free : Capacity) (offered : List Item) :
    Capacity :=
  offered.foldl (fun free item => (offer items pipelines free item).2) free

theorem remaining_cons {free left : Capacity} {decision : Except SkipReason Action}
    {rest : List Item} (h : offer items pipelines free item = (decision, left)) :
    remaining items pipelines free (item :: rest) = remaining items pipelines left rest := by
  rw [remaining, List.foldl_cons, h, remaining]

/-- What a decision adds to the actions. -/
def granted? : Item × Except SkipReason Action → Option Action
  | (_, .ok action) => some action
  | (_, .error _) => none

/-- What a decision adds to the items that are passed over. -/
def refused? : Item × Except SkipReason Action → Option (String × SkipReason)
  | (_, .ok _) => none
  | (item, .error reason) => some (item.id, reason)

theorem granted?_eq_some_iff {d : Item × Except SkipReason Action} :
    granted? d = some action ↔ d.2 = .ok action := by
  obtain ⟨_, _ | _⟩ := d <;> simp [granted?]

theorem refused?_eq_some_iff {d : Item × Except SkipReason Action} {id : String}
    {reason : SkipReason} :
    refused? d = some (id, reason) ↔ d.1.id = id ∧ d.2 = .error reason := by
  obtain ⟨_, _ | _⟩ := d <;> simp [refused?]

theorem offerAll_cons_ok {free left : Capacity} {rest : List Item}
    (h : offer items pipelines free item = (.ok action, left)) :
    offerAll items pipelines free (item :: rest)
      = { offerAll items pipelines left rest with
          actions := action :: (offerAll items pipelines left rest).actions } := by
  rw [offerAll, h]

theorem offerAll_cons_error {free left : Capacity} {reason : SkipReason} {rest : List Item}
    (h : offer items pipelines free item = (.error reason, left)) :
    offerAll items pipelines free (item :: rest)
      = { offerAll items pipelines left rest with
          skipped := (item.id, reason) :: (offerAll items pipelines left rest).skipped } := by
  rw [offerAll, h]

/-- A plan is a list of decisions, told apart. -/
theorem offerAll_eq (free : Capacity) (offered : List Item) :
    offerAll items pipelines free offered
      = { actions := (decisions items pipelines free offered).filterMap granted?
          skipped := (decisions items pipelines free offered).filterMap refused? } := by
  induction offered generalizing free with
  | nil => rfl
  | cons first rest ih =>
    cases hoffer : offer items pipelines free first with
    | mk decision left =>
      rw [decisions_cons hoffer]
      cases decision with
      | ok action =>
        rw [offerAll_cons_ok hoffer, ih left]
        rfl
      | error reason =>
        rw [offerAll_cons_error hoffer, ih left]
        rfl

/-- Who comes later is offered what those before leave. -/
theorem decisions_append (free : Capacity) (xs ys : List Item) :
    decisions items pipelines free (xs ++ ys)
      = decisions items pipelines free xs
        ++ decisions items pipelines (remaining items pipelines free xs) ys := by
  induction xs generalizing free with
  | nil => rfl
  | cons first rest ih =>
    simp only [List.cons_append, decisions, ih]
    rfl

theorem map_fst_decisions (free : Capacity) (offered : List Item) :
    (decisions items pipelines free offered).map Prod.fst = offered := by
  induction offered generalizing free with
  | nil => rfl
  | cons first rest ih => rw [decisions, List.map_cons, ih]

/-- Each decision is made when those before have been offered their slots. -/
theorem mem_decisions_iff {free : Capacity} {offered : List Item}
    {decision : Except SkipReason Action} :
    (item, decision) ∈ decisions items pipelines free offered ↔
      ∃ before behind, offered = before ++ item :: behind ∧
        (offer items pipelines (remaining items pipelines free before) item).1 = decision := by
  constructor
  · intro h
    induction offered generalizing free with
    | nil => cases h
    | cons first rest ih =>
      rcases List.mem_cons.mp h with heq | h
      · cases heq
        exact ⟨[], rest, rfl, rfl⟩
      · obtain ⟨before, behind, rfl, hdecision⟩ := ih h
        exact ⟨first :: before, behind, rfl, hdecision⟩
  · rintro ⟨before, behind, rfl, rfl⟩
    rw [decisions_append]
    exact List.mem_append_right _ List.mem_cons_self

theorem mem_actions_offerAll {free : Capacity} {offered : List Item} :
    action ∈ (offerAll items pipelines free offered).actions ↔
      ∃ item, (item, .ok action) ∈ decisions items pipelines free offered := by
  simp only [offerAll_eq, List.mem_filterMap, granted?_eq_some_iff]
  constructor
  · rintro ⟨⟨item, _⟩, hmem, rfl⟩
    exact ⟨item, hmem⟩
  · rintro ⟨item, hmem⟩
    exact ⟨_, hmem, rfl⟩

theorem mem_skipped_offerAll {free : Capacity} {offered : List Item} {id : String}
    {reason : SkipReason} :
    (id, reason) ∈ (offerAll items pipelines free offered).skipped ↔
      ∃ item, item.id = id ∧ (item, .error reason) ∈ decisions items pipelines free offered := by
  simp only [offerAll_eq, List.mem_filterMap, refused?_eq_some_iff]
  constructor
  · rintro ⟨⟨item, _⟩, hmem, hid, rfl⟩
    exact ⟨item, hid, hmem⟩
  · rintro ⟨item, hid, hmem⟩
    exact ⟨_, hmem, hid, rfl⟩

/-- Whoever is granted an action was offered a slot, proposed that action and waited for nobody. -/
theorem granted_of_mem_decisions {free : Capacity} {offered : List Item}
    (h : (item, .ok action) ∈ decisions items pipelines free offered) :
    item ∈ offered ∧ proposal pipelines item = some action ∧ unmetDependencies items item = [] := by
  obtain ⟨before, behind, rfl, hgranted⟩ := mem_decisions_iff.mp h
  obtain ⟨hproposal, hunmet, -⟩ := proposal_of_granted hgranted
  exact ⟨List.mem_append_cons_self, hproposal, hunmet⟩

/-! ## Plans -/

theorem actions_tick : (tick items running limits pipelines).actions
    = (signals items running (byAge items)).actions
      ++ (offerAll items pipelines (.left limits running)
        (candidates items running pipelines)).actions := rfl

theorem skipped_tick : (tick items running limits pipelines).skipped
    = (signals items running (byAge items)).skipped
      ++ (offerAll items pipelines (.left limits running)
        (candidates items running pipelines)).skipped := rfl

/-- An action of a plan is the signal of an item, or what an item that is open proposes once its
    dependencies are met. -/
theorem mem_actions_tick (h : action ∈ (tick items running limits pipelines).actions) :
    ∃ item ∈ items, standing items running item = .act action ∨
      IsOpen running item ∧ proposal pipelines item = some action ∧
        unmetDependencies items item = [] := by
  rw [actions_tick] at h
  rcases List.mem_append.mp h with h | h
  · obtain ⟨item, hitem, hstanding⟩ := mem_actions_signals.mp h
    exact ⟨item, mem_byAge.mp hitem, .inl hstanding⟩
  · obtain ⟨item, hdecision⟩ := mem_actions_offerAll.mp h
    obtain ⟨hcandidate, hproposal, hunmet⟩ := granted_of_mem_decisions hdecision
    obtain ⟨hitem, hopen⟩ := mem_candidates.mp hcandidate
    exact ⟨item, hitem, .inr ⟨hopen, hproposal, hunmet⟩⟩

/-- An action that takes a slot is what an open item proposes. -/
theorem proposal_of_takesCapacity (h : action ∈ (tick items running limits pipelines).actions)
    (htakes : action.takesCapacity = true) :
    ∃ item ∈ items, item.id = action.item ∧ IsOpen running item ∧
      proposal pipelines item = some action ∧ unmetDependencies items item = [] := by
  obtain ⟨item, hitem, hstanding | ⟨hopen, hproposal, hunmet⟩⟩ := mem_actions_tick h
  · obtain ⟨-, -, hnot, -⟩ := signal_of_standing hstanding
    rw [htakes] at hnot
    cases hnot
  · exact ⟨item, hitem, (proposal_takes hproposal).1.symm, hopen, hproposal, hunmet⟩

/-- A plan has no action for an item that is in flight. -/
theorem idle_of_mem_actions (h : action ∈ (tick items running limits pipelines).actions) :
    running.contains action.item = false := by
  obtain ⟨item, -, hstanding | ⟨hopen, hproposal, -⟩⟩ := mem_actions_tick h
  · obtain ⟨hidle, hid, -⟩ := signal_of_standing hstanding
    rw [hid]
    exact hidle
  · rw [(proposal_takes hproposal).1]
    exact hopen.idle

/-- An item that is in flight is passed over as such. -/
theorem mem_skipped_of_running (hitem : item ∈ items) (hbusy : running.contains item.id = true) :
    (item.id, .alreadyRunning) ∈ (tick items running limits pipelines).skipped := by
  rw [skipped_tick]
  refine List.mem_append_left _ (mem_skipped_signals.mpr ⟨item, mem_byAge.mpr hitem, rfl, ?_⟩)
  rw [standing, if_pos hbusy]

/-- An item is unblocked with the answer that it carries. -/
theorem blocked_of_unblock {id context : String}
    (h : Action.unblock id context ∈ (tick items running limits pipelines).actions) :
    ∃ item ∈ items, item.id = id ∧ item.status = .blocked ∧ item.unblockContext = some context := by
  obtain ⟨item, hitem, hstanding | ⟨-, hproposal, -⟩⟩ := mem_actions_tick h
  · have hstands := stands items running item
    rw [hstanding] at hstands
    cases hstands with
    | answered _ hblocked hcontext => exact ⟨item, hitem, rfl, hblocked, hcontext⟩
  · obtain ⟨-, htakes⟩ := proposal_takes hproposal
    cases htakes

/-- An item that is passed over for want of a runnable phase is open, and proposes nothing. -/
theorem mem_skipped_noRunnablePhase {id : String}
    (h : (id, SkipReason.noRunnablePhase) ∈ (tick items running limits pipelines).skipped) :
    ∃ item ∈ items, item.id = id ∧ IsOpen running item ∧ proposal pipelines item = none := by
  rw [skipped_tick] at h
  rcases List.mem_append.mp h with h | h
  · -- no signal is withheld for that reason
    obtain ⟨item, -, -, hstanding⟩ := mem_skipped_signals.mp h
    have hstands := stands items running item
    rw [hstanding] at hstands
    cases hstands
  · obtain ⟨item, hid, hdecision⟩ := mem_skipped_offerAll.mp h
    obtain ⟨before, behind, hcandidates, herror⟩ := mem_decisions_iff.mp hdecision
    obtain ⟨hitem, hopen⟩ := mem_candidates.mp (hcandidates ▸ List.mem_append_cons_self)
    cases refused_of_error herror with
    | idle hnone => exact ⟨item, hitem, hid, hopen, hnone⟩

/-! ## A plan -/

/-- A ready item, one in a destructive phase, one that says no phase, and a new one that waits for the
    first. -/
def sample : List Item :=
  [Draft.sample.setStatus ⟨0, 0⟩ .ready,
   { Draft.sample.enter ⟨0, 0⟩ .inProgress .main ⟨"build", true⟩ with id := "WRK-2" },
   { Draft.sample.setStatus ⟨0, 0⟩ .inProgress with id := "WRK-3" },
   { Draft.sample with id := "WRK-4", dependencies := ["WRK-1"] }]

/-- Another item runs a phase. -/
def sampleRunning : Running := Dict.empty.insert "WRK-9" ⟨"spec", .main, false⟩

theorem tick_sample : tick sample sampleRunning {} default
    = { actions := [.promote "WRK-1" .ready, .runPhase "WRK-2" "build" .main true]
        skipped := [("WRK-3", .noRunnablePhase), ("WRK-4", .unmetDependencies ["WRK-1"])] } := by
  have hage : byAge sample = sample := byAge_of_pairwise (by decide +kernel)
  rw [tick, candidates, hage, byKeyDown_of_pairwise (by decide +kernel),
    byKeyDown_of_pairwise (by decide +kernel), byKeyDown_of_pairwise (by decide +kernel)]
  decide +kernel

end Schedule

end Backlog
