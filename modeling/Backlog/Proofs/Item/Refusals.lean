/-
  Changes that are refused.

  Program: a checked change gives its result or a refusal, and the item after it either way.

  Specification: a refused change gives the item as it was, to the last entry and the time stamp
  (`LeavesNoTrace`).  So updates that are refused together come to those before the first refused one,
  and the refused ones among some deeds might as well not have been tried (`refused_leaves_no_trace`).

  The crux is that checks come before writes, also where one change goes on with another: what it has
  written until then is nothing.
-/
import Backlog.Proofs.Item.Consistent

namespace Backlog

/-- A refused change gives the item as it was. -/
def Change.LeavesNoTrace {α : Type} (change : Change α) : Prop :=
  ∀ item e after, change item = (.error e, after) → after = item

theorem Change.LeavesNoTrace.eq_of_error {α : Type} {change : Change α} (h : change.LeavesNoTrace)
    {item : Item} {e : Refusal} (hrefused : (change item).1 = .error e) : (change item).2 = item :=
  h item e (change item).2 (Prod.ext hrefused rfl)

namespace Item

variable (now : Stamp) (set : Pipelines)

/-! ## Changes of the status -/

theorem leavesNoTrace_setBlocked (reason : Option String) (blockedType : Option BlockType) :
    Change.LeavesNoTrace (setBlocked now reason blockedType) := by
  intro item e after h
  by_cases hdone : item.status = .done
  · rw [setBlocked, if_pos hdone] at h
    cases h
    rfl
  · rw [setBlocked_eq now reason blockedType hdone] at h
    cases h

theorem leavesNoTrace_transition (dst : Status) : Change.LeavesNoTrace (transition now dst) := by
  intro item e after h
  simp only [transition] at h
  split at h
  · -- there already
    cases h
  · split at h
    · -- not in the table
      cases h
      rfl
    · split at h
      · exact leavesNoTrace_setBlocked now none none item e after h
      · cases h

theorem leavesNoTrace_unblock (context : Option String) :
    Change.LeavesNoTrace (unblock now context) := by
  intro item e after h
  simp only [unblock] at h
  split at h
  · cases h
    rfl
  · split at h
    · cases h
      rfl
    · cases h

/-! ## Updates -/

theorem leavesNoTrace_applyUpdate (u : Update) : Change.LeavesNoTrace (applyUpdate now u) := by
  intro item e after h
  cases u with
  | transition status =>
    simp only [applyUpdate] at h
    split at h
    · cases h
      rfl
    · exact leavesNoTrace_transition now status item e after h
  | setBlocked reason blockedType =>
    exact leavesNoTrace_setBlocked now (some reason) blockedType item e after h
  | setUnblockContext | setMergeInto | setTitle =>
    simp only [applyUpdate] at h
    split at h
    · cases h
      rfl
    · cases h
  | setPhase | setPhasePool | setPipelineType | assess | setDescription | setTriageRequested
  | setDependencies | addTag | removeTag | setPriority => cases h

/-- Updates that are refused have been carried out as far as the first refused one. -/
theorem applyUpdates_error_inv {now : Stamp} {updates : List Update} {item after : Item} {e : Refusal}
    (h : item.applyUpdates now updates = (.error e, after)) :
    ∃ accepted refused rest, updates = accepted ++ refused :: rest ∧
      item.applyUpdates now accepted = (.ok (), after) ∧
      after.applyUpdate now refused = (.error e, after) := by
  induction updates generalizing item with
  | nil => cases h
  | cons u us ih =>
    simp only [applyUpdates] at h
    split at h
    · -- the first one is accepted
      next between hupdate =>
      obtain ⟨accepted, refused, rest, rfl, haccepted, hrefused⟩ := ih h
      refine ⟨u :: accepted, refused, rest, rfl, ?_, hrefused⟩
      simp only [applyUpdates, hupdate, haccepted]
    · next hupdate =>
      cases h
      obtain rfl := leavesNoTrace_applyUpdate now u item e after hupdate
      exact ⟨[], u, us, rfl, rfl, hupdate⟩

/-! ## Progress -/

theorem leavesNoTrace_promote : Change.LeavesNoTrace (promote now set) := by
  intro item e after h
  simp only [promote] at h
  split at h
  · cases h
    rfl
  · split at h
    · cases h
    · cases h
    · cases h
      rfl

theorem leavesNoTrace_advance (phase : String) :
    Change.LeavesNoTrace (advance now phase set) := by
  intro item e after h
  simp only [advance] at h
  split at h
  · cases h
    rfl
  · split at h
    · cases h
      rfl
    · split at h
      · cases h
        rfl
      · cases h

theorem leavesNoTrace_blockInPhase (phase reason : String) (blockedType : Option BlockType) :
    Change.LeavesNoTrace (blockInPhase now phase reason blockedType) := by
  intro item e after h
  simp only [blockInPhase] at h
  split at h
  · cases h
    rfl
  · exact leavesNoTrace_setBlocked now (some reason) blockedType item e after h

theorem leavesNoTrace_recordOutcome (phase : String) (outcome : RunOutcome) :
    Change.LeavesNoTrace (recordOutcome now phase outcome set) := by
  intro item e after h
  cases outcome with
  | complete =>
    simp only [recordOutcome] at h
    split at h
    · cases h
    · next hadvance =>
      cases h
      exact leavesNoTrace_advance now set phase item e after hadvance
  | blocked reason blockedType =>
    simp only [recordOutcome] at h
    split at h
    · cases h
    · next hblock =>
      cases h
      exact leavesNoTrace_blockInPhase now phase reason (some blockedType) item e after hblock
  | failed reason =>
    simp only [recordOutcome] at h
    split at h
    · cases h
    · next hblock =>
      cases h
      exact leavesNoTrace_blockInPhase now phase _ none item e after hblock

theorem leavesNoTrace_startPhase (revision : Option String) :
    Change.LeavesNoTrace (startPhase now revision) := by
  intro item e after h
  simp only [startPhase] at h
  split at h
  · cases h
    rfl
  · split at h
    · cases h
    · cases h
    · cases h
      rfl

end Item

/-! ## Deeds -/

namespace Deed

/-- Whether the deed is accepted on the item. -/
def isAccepted (item : Item) : Deed → Bool
  | .update now u => (item.applyUpdate now u).1.isOk
  | .promote now set => (item.promote now set).1.isOk
  | .advance now phase set => (item.advance now phase set).1.isOk
  | .record now phase outcome set => (item.recordOutcome now phase outcome set).1.isOk
  | .start now revision => (item.startPhase now revision).1.isOk
  | .unblock now context => (item.unblock now context).1.isOk
  | .absorb .. | .redirect .. => true

theorem on_of_not_accepted {item : Item} {deed : Deed} (h : deed.isAccepted item = false) :
    deed.on item = item := by
  have hsame : ∀ {α : Type} {change : Change α}, change.LeavesNoTrace →
      (change item).1.isOk = false → (change item).2 = item := by
    intro α change hchange hrefused
    cases hresult : (change item).1 with
    | error e => exact hchange.eq_of_error hresult
    | ok a =>
      rw [hresult] at hrefused
      cases hrefused
  cases deed with
  | update now u => exact hsame (Item.leavesNoTrace_applyUpdate now u) h
  | promote now set => exact hsame (Item.leavesNoTrace_promote now set) h
  | advance now phase set => exact hsame (Item.leavesNoTrace_advance now set phase) h
  | record now phase outcome set =>
    exact hsame (Item.leavesNoTrace_recordOutcome now set phase outcome) h
  | start now revision => exact hsame (Item.leavesNoTrace_startPhase now revision) h
  | unblock now context => exact hsame (Item.leavesNoTrace_unblock now context) h
  | absorb | redirect => cases h

end Deed

namespace Item

/-- The deeds that are accepted when all of them are tried in turn. -/
def accepted (item : Item) : List Deed → List Deed
  | [] => []
  | deed :: rest =>
    if deed.isAccepted item then deed :: accepted (deed.on item) rest else accepted item rest

/-- The deeds that are refused might as well not have been tried. -/
theorem after_accepted (item : Item) (deeds : List Deed) :
    item.after (item.accepted deeds) = item.after deeds := by
  induction deeds generalizing item with
  | nil => rfl
  | cons deed rest ih =>
    rw [accepted]
    split
    · exact ih (deed.on item)
    · next hrefused =>
      have hsame := Deed.on_of_not_accepted (Bool.of_not_eq_true hrefused)
      calc item.after (item.accepted rest) = item.after rest := ih item
        _ = (deed.on item).after rest := by rw [hsame]

/-! ## Whatever is refused -/

/-- Whatever is refused leaves the item as it was, its entries and the time of its last write
    included.  What begins with the check whether the phase is running fails where that does.  Updates
    that are refused together have been carried out as far as the first refused one, and of some deeds
    those that are refused might as well not have been tried. -/
theorem refused_leaves_no_trace (now : Stamp) (set : Pipelines) :
    (∀ u, (applyUpdate now u).LeavesNoTrace) ∧
    (∀ dst, (transition now dst).LeavesNoTrace) ∧
    (∀ reason blockedType, (setBlocked now reason blockedType).LeavesNoTrace) ∧
    (∀ context, (unblock now context).LeavesNoTrace) ∧
    (promote now set).LeavesNoTrace ∧
    (∀ phase, (advance now phase set).LeavesNoTrace) ∧
    (∀ phase outcome, (recordOutcome now phase outcome set).LeavesNoTrace) ∧
    (∀ item phase e, runningPool phase item = .error e →
      advance now phase set item = (.error e, item) ∧
      ∀ outcome, recordOutcome now phase outcome set item = (.error e, item)) ∧
    (∀ updates item after e, applyUpdates now updates item = (.error e, after) →
      ∃ accepted refused rest, updates = accepted ++ refused :: rest ∧
        applyUpdates now accepted item = (.ok (), after) ∧
        applyUpdate now refused after = (.error e, after)) ∧
    ∀ (item : Item) deeds, item.after (item.accepted deeds) = item.after deeds := by
  refine ⟨leavesNoTrace_applyUpdate now, leavesNoTrace_transition now, leavesNoTrace_setBlocked now,
    leavesNoTrace_unblock now, leavesNoTrace_promote now set, leavesNoTrace_advance now set,
    leavesNoTrace_recordOutcome now set, fun item phase e hrunning => ⟨?_, fun outcome => ?_⟩,
    fun _ _ _ _ => applyUpdates_error_inv, after_accepted⟩
  · simp only [advance, hrunning]
  · exact recordOutcome_of_not_running now set hrunning

/-- An item that was answered while its first phase was blocked. -/
def answeredSample : Item :=
  Draft.sample.after [.promote ⟨1, 0⟩ default, .update ⟨2, 0⟩ (.setBlocked "which cache?" none),
    .unblock ⟨3, 0⟩ (some "the second")]

/-- It keeps the answer and all else when another phase is reported to be complete, and when it is to
    be promoted again, made new, renamed or unblocked again.  A new item that is done is not blocked any
    more, and trying to rename the answered one after a tag was added makes no difference. -/
theorem refused_leaves_no_trace_answered :
    answeredSample.unblockContext = some "the second" ∧
    recordOutcome ⟨4, 0⟩ "prd" .complete default answeredSample
      = (.error (.otherPhase "prd" "research"), answeredSample) ∧
    (promote ⟨4, 0⟩ default answeredSample).2 = answeredSample ∧
    (transition ⟨4, 0⟩ .new answeredSample).2 = answeredSample ∧
    (applyUpdate ⟨4, 0⟩ (.setTitle " ") answeredSample).2 = answeredSample ∧
    (unblock ⟨4, 0⟩ none answeredSample).2 = answeredSample ∧
    (setBlocked ⟨4, 0⟩ (some "too late") none (Draft.sample.setStatus ⟨3, 0⟩ .done)).2
      = Draft.sample.setStatus ⟨3, 0⟩ .done ∧
    answeredSample.after [.update ⟨4, 0⟩ (.addTag "cache"), .update ⟨5, 0⟩ (.setTitle " ")]
      = answeredSample.after [.update ⟨4, 0⟩ (.addTag "cache")] := by
  obtain ⟨hupdate, htransition, hblock, hunblock, hpromote, -, -, hrunning, -, haccepted⟩ :=
    refused_leaves_no_trace ⟨4, 0⟩ default
  have hother : runningPool "prd" answeredSample = .error (.otherPhase "prd" "research") := by rfl
  have hpromoted : (promote ⟨4, 0⟩ default answeredSample).1 = .error (.notPromotable .scoping) := by
    rfl
  have hmoved : (transition ⟨4, 0⟩ .new answeredSample).1 = .error (.cannotMove .scoping .new) := by
    rfl
  have hrenamed : (applyUpdate ⟨4, 0⟩ (.setTitle " ") answeredSample).1 = .error .emptyTitle := by rfl
  have hfree : (unblock ⟨4, 0⟩ none answeredSample).1 = .error (.notBlocked .scoping) := by rfl
  have hlate : (setBlocked ⟨4, 0⟩ (some "too late") none (Draft.sample.setStatus ⟨3, 0⟩ .done)).1
      = .error .blockFinished := by rfl
  have htagged : answeredSample.accepted
      [.update ⟨4, 0⟩ (.addTag "cache"), .update ⟨5, 0⟩ (.setTitle " ")]
        = [.update ⟨4, 0⟩ (.addTag "cache")] := by rfl
  exact ⟨by decide +kernel, (hrunning _ _ _ hother).2 _, hpromote.eq_of_error hpromoted,
    (htransition .new).eq_of_error hmoved, (hupdate (.setTitle " ")).eq_of_error hrenamed,
    (hunblock none).eq_of_error hfree, (hblock (some "too late") none).eq_of_error hlate,
    (haccepted answeredSample _).symm.trans (by rw [htagged])⟩

end Item

end Backlog
