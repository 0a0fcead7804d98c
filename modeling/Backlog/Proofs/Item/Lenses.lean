/-
  Typed fields, written and read.

  Program: the fields that an item keeps in its extension entries are written each on its own, but for
  the assessments, which are written together.

  Specification: whatever the entries hold, a field reads after a write as it was given, if the write is
  about it, and else as before (`reads_as_given`).  Entries of others stay as they are, and so do the
  native fields, but for the time of the write and for the description in one line, which a structured
  description brings along.

  What is given is said for each write and each field (`FieldWrite.given?`).  The crux is that a write
  touches the entries that it is about and no other (`FieldWrite.written_on`): a reader of another entry
  does not notice it, however malformed that entry is.
-/
import Backlog.Proofs.Item.Consistent

namespace Backlog

open Text (Vocabulary LawfulVocabulary)

/-! ## Writes of fields -/

/-- A write of typed fields. -/
inductive FieldWrite where
  | phase (name : Option String)
  | phasePool (pool : Option Pool)
  | pipelineType (name : Option String)
  | lastPhaseCommit (revision : Option String)
  | unblockContext (context : Option String)
  | mergeInto (target : Option String)
  /-- Assessments that are not given stay. -/
  | assessments (impact : Option Level) (size : Option Size) (risk : Option Level)
      (requiresHumanReview : Option Bool)
  | triageRequested (requested : Bool)
  | structured (description : Description)
deriving DecidableEq, Repr

/-- A text without the blank space around it; nothing if it has nothing else. -/
def trimmed (text : Option String) : Option String := (text.map Text.trim).filter (· ≠ "")

namespace FieldWrite

/-- The item after a write. -/
def on (now : Stamp) : FieldWrite → Item → Item
  | .phase name, item => item.setPhase now name
  | .phasePool pool, item => item.setPhasePool now pool
  | .pipelineType name, item => item.setPipelineType now name
  | .lastPhaseCommit revision, item => item.setLastPhaseCommit now revision
  | .unblockContext context, item => item.setUnblockContext now context
  | .mergeInto target, item => item.setMergeInto now target
  | .assessments impact size risk review, item =>
    (item.applyUpdate now (.assess impact size risk review)).2
  | .triageRequested requested, item => item.setTriageRequested now requested
  | .structured description, item => item.setStructured now description

/-- What a write gives a field to be read; none if it is not about the field. -/
def given? : FieldWrite → (key : Key) → Option key.Reading
  | .phase name, .phase => some (trimmed name)
  | .phasePool pool, .phasePool => some pool
  | .pipelineType name, .pipelineType => some (trimmed name)
  | .lastPhaseCommit revision, .lastPhaseCommit => some ((revision.map Text.trim).filter isRevision)
  | .unblockContext context, .unblockContext => some (trimmed context)
  | .mergeInto target, .mergeInto => some (trimmed target)
  | .assessments impact _ _ _, .impact => impact.map some
  | .assessments _ size _ _, .size => size.map some
  | .assessments _ _ risk _, .risk => risk.map some
  | .assessments _ _ _ review, .requiresHumanReview => review
  | .triageRequested requested, .triageRequested => some requested
  | .structured description, .description => some (some description)
  | _, _ => none

/-- The description in one line after a write. -/
def line (item : Item) : FieldWrite → Option String
  | .structured description => if Text.isBlank description.context then none else some description.context
  | _ => item.description

/-- The entries that a write is about. -/
def keys : FieldWrite → List Key
  | .phase _ => [.phase]
  | .phasePool _ => [.phasePool]
  | .pipelineType _ => [.pipelineType]
  | .lastPhaseCommit _ => [.lastPhaseCommit]
  | .unblockContext _ => [.unblockContext]
  | .mergeInto _ => [.mergeInto]
  | .assessments .. => [.impact, .size, .risk, .requiresHumanReview]
  | .triageRequested _ => [.triageRequested]
  | .structured _ => [.description]

theorem given?_eq_none {write : FieldWrite} {key : Key} (h : key ∉ write.keys) :
    write.given? key = none := by
  cases write <;> cases key <;> first | rfl | simp [keys] at h

/-! ## What a write is not about -/

section

variable (now : Stamp) (write : FieldWrite) (item : Item)

theorem written_on : Item.Written now write.keys item (write.on now item) := by
  cases write with
  | phase name => exact Item.Written.same.setText List.mem_cons_self name
  | phasePool pool => exact Item.Written.same.setMember List.mem_cons_self pool
  | pipelineType name => exact Item.Written.same.setText List.mem_cons_self name
  | lastPhaseCommit revision => exact Item.Written.same.setText List.mem_cons_self revision
  | unblockContext context => exact Item.Written.same.setText List.mem_cons_self context
  | mergeInto target => exact Item.Written.same.setText List.mem_cons_self target
  | assessments impact size risk review => exact Item.written_assess impact size risk review
  | triageRequested requested => exact Item.written_setTriageRequested requested
  | structured description => exact Item.Written.same.setStructured List.mem_cons_self description

theorem nativeFacts_on :
    (write.on now item).nativeFacts = (item.natives, item.blockedReason, write.line item) := by
  cases write with
  | phase | phasePool | pipelineType | lastPhaseCommit | unblockContext | mergeInto =>
    exact Item.nativeFacts_setText now _ _ item
  | assessments impact size risk review =>
    have hlevels : (((item.recordMember now .impact impact).recordMember now .size size).recordMember now
        .risk risk).nativeFacts = item.nativeFacts := by
      simp only [Item.nativeFacts_recordMember]
    cases review with
    | none => exact hlevels
    | some b => exact (Item.nativeFacts_setEntry ..).trans hlevels
  | triageRequested requested =>
    cases requested with
    | false => exact Item.nativeFacts_removeEntry ..
    | true => rfl
  | structured description => rfl

end

end FieldWrite

/-- An item is its native fields and its entries. -/
theorem Item.eq_of_facts {item after : Item} {line : Option String}
    (hparticulars : after.particulars = item.particulars)
    (hfacts : after.nativeFacts = (item.natives, item.blockedReason, line)) :
    after = { item with
      description := line, extensions := after.extensions, updatedAt := after.updatedAt } := by
  cases item
  cases after
  simp only [particulars, Particulars.mk.injEq] at hparticulars
  simp only [nativeFacts, natives, Prod.mk.injEq] at hfacts
  simp [hparticulars, hfacts]

/-! ## What a write is about -/

/-- A text that was trimmed is blank only if nothing is left of it. -/
theorem isBlank_trim_iff (s : String) : Text.isBlank (Text.trim s) = true ↔ Text.trim s = "" := by
  rw [Text.isBlank_trim, Text.trim_eq_empty]

theorem notBlank_trim (text : Option String) : Item.notBlank (text.map Text.trim) = trimmed text := by
  cases text with
  | none => rfl
  | some s =>
    show Option.filter _ (some (Text.trim s)) = Option.filter _ (some (Text.trim s))
    simp only [Option.filter_some, decide_not, Bool.not_eq_true', ← Bool.not_eq_true, isBlank_trim_iff,
      decide_eq_true_eq]

/-- No revision is blank. -/
theorem filter_isRevision (text : Option String) :
    (trimmed text).filter isRevision = (text.map Text.trim).filter isRevision := by
  rw [trimmed, Option.filter_filter]
  congr 1
  funext s
  by_cases hempty : s = ""
  · subst hempty
    rfl
  · simp [hempty]

namespace Item

variable {item after : Item} {key : Key}

theorem extension?_recordMember {α : Type} [Vocabulary α] (now : Stamp) (key : Key) (value : Option α)
    (item : Item) (other : Key) :
    (item.recordMember now key value).extension? other
      = if other = key then (value.map fun a => Json.text (Text.word a)).or (item.extension? key)
        else item.extension? other := by
  cases value with
  | none =>
    show item.extension? other = _
    split
    · next heq => rw [heq, Option.map_none, Option.none_or]
    · rfl
  | some a => exact extension?_setEntry ..

/-- A member that is recorded is read back; if none is, the entry counts that was there before. -/
theorem member_of_recorded {α : Type} [Vocabulary α] [LawfulVocabulary α] {value : Option α}
    (h : after.extension? key
      = (value.map fun a => Json.text (Text.word a)).or (item.extension? key)) :
    settle (inspectMember α key after) = (value.map some).getD (settle (inspectMember α key item)) := by
  cases value with
  | none =>
    rw [inspectMember_congr h]
    rfl
  | some a =>
    rw [inspectMember_word h]
    rfl

end Item

namespace FieldWrite

variable (now : Stamp) (write : FieldWrite) (item : Item)

/-- Each of the assessments is recorded under its own key. -/
theorem extension?_assessments (impact : Option Level) (size : Option Size) (risk : Option Level)
    (review : Option Bool) :
    ((assessments impact size risk review).on now item).extension? .impact
        = (impact.map fun a => Json.text (Text.word a)).or (item.extension? .impact) ∧
      ((assessments impact size risk review).on now item).extension? .size
        = (size.map fun a => Json.text (Text.word a)).or (item.extension? .size) ∧
      ((assessments impact size risk review).on now item).extension? .risk
        = (risk.map fun a => Json.text (Text.word a)).or (item.extension? .risk) ∧
      ((assessments impact size risk review).on now item).extension? .requiresHumanReview
        = (review.map Json.bool).or (item.extension? .requiresHumanReview) := by
  cases review with
  | none => simp [on, Item.applyUpdate, Item.extension?_recordMember]
  | some b => simp [on, Item.applyUpdate, Item.extension?_recordMember]

/-- A field that a write is about reads as given. -/
theorem read_of_mem {key : Key} (h : key ∈ write.keys) :
    (write.on now item).read key = (write.given? key).getD (item.read key) := by
  cases write with
  | phase name =>
    obtain rfl := List.mem_singleton.mp h
    exact (Item.phase_setPhase now name item).trans (notBlank_trim name)
  | phasePool pool =>
    obtain rfl := List.mem_singleton.mp h
    exact Item.phasePool_setPhasePool now pool item
  | pipelineType name =>
    obtain rfl := List.mem_singleton.mp h
    exact (Item.pipelineType_setPipelineType now name item).trans (notBlank_trim name)
  | lastPhaseCommit revision =>
    obtain rfl := List.mem_singleton.mp h
    refine (Item.lastPhaseCommit_setLastPhaseCommit now revision item).trans ?_
    rw [notBlank_trim]
    exact filter_isRevision revision
  | unblockContext context =>
    obtain rfl := List.mem_singleton.mp h
    exact (Item.unblockContext_setUnblockContext now context item).trans (notBlank_trim context)
  | mergeInto target =>
    obtain rfl := List.mem_singleton.mp h
    exact (Item.mergeInto_setMergeInto now target item).trans (notBlank_trim target)
  | assessments impact size risk review =>
    obtain ⟨himpact, hsize, hrisk, hreview⟩ := extension?_assessments now item impact size risk review
    have hfour : key = .impact ∨ key = .size ∨ key = .risk ∨ key = .requiresHumanReview := by
      simpa [keys] using h
    rcases hfour with rfl | rfl | rfl | rfl
    · exact Item.member_of_recorded himpact
    · exact Item.member_of_recorded hsize
    · exact Item.member_of_recorded hrisk
    · cases review with
      | none =>
        have hsame := Item.inspectFlag_congr hreview
        exact congrArg (fun flag => flag.toOption.getD false) hsame
      | some b =>
        show (Item.inspectFlag _ _).toOption.getD false = b
        rw [Item.inspectFlag, hreview]
        rfl
  | triageRequested requested =>
    obtain rfl := List.mem_singleton.mp h
    exact Item.triageRequested_setTriageRequested now requested item
  | structured description =>
    obtain rfl := List.mem_singleton.mp h
    exact Item.structured_setStructured now description item

end FieldWrite

/-! ## Fields as lenses -/

/-- A field reads after a write as it was given, if the write is about it, and else as before.  The
    entries of others are as before, and of the native fields only the description in one line and the
    time of the last write may differ. -/
theorem reads_as_given (now : Stamp) (write : FieldWrite) (item : Item) :
    (∀ key, (write.on now item).read key = (write.given? key).getD (item.read key)) ∧
    (∀ name, (∀ key : Key, name ≠ key.name) →
      (write.on now item).extensions.get? name = item.extensions.get? name) ∧
    write.on now item = { item with
      description := write.line item
      extensions := (write.on now item).extensions
      updatedAt := (write.on now item).updatedAt } := by
  have hwritten := write.written_on now item
  have hfacts := write.nativeFacts_on now item
  have hnatives : (write.on now item).natives = item.natives := congrArg Prod.fst hfacts
  refine ⟨?_, ?_, Item.eq_of_facts hwritten.particulars hfacts⟩
  · intro key
    by_cases hkey : key ∈ write.keys
    · exact write.read_of_mem now item hkey
    · rw [FieldWrite.given?_eq_none hkey]
      exact Item.read_congr (congrArg Prod.fst hnatives) (congrArg Prod.snd hnatives)
        (hwritten.extension? hkey)
  · intro name hname
    exact hwritten.get? fun key _ => hname key

/-- An item with a field that nobody can read, and with an entry of someone else. -/
def cluttered : Item :=
  { Draft.sample with
    extensions := .ofList [("x-other", .null), ("x-pk-phase", .text "build"), ("x-pk-size", .int 3)] }

/-- A merge signal is trimmed, and the other entries do not matter to it. -/
theorem reads_as_given_cluttered :
    ((FieldWrite.mergeInto (some " WRK-2\t")).on ⟨1, 0⟩ cluttered).mergeInto = some "WRK-2" ∧
      ((FieldWrite.mergeInto (some " WRK-2\t")).on ⟨1, 0⟩ cluttered).size = none ∧
      ((FieldWrite.mergeInto (some " WRK-2\t")).on ⟨1, 0⟩ cluttered).phase = some "build" ∧
      (∀ key : Key, "x-other" ≠ key.name) ∧
      ((FieldWrite.mergeInto (some " WRK-2\t")).on ⟨1, 0⟩ cluttered).extensions.get? "x-other"
        = some .null := by
  obtain ⟨hread, hothers, -⟩ := reads_as_given ⟨1, 0⟩ (.mergeInto (some " WRK-2\t")) cluttered
  have hforeign : ∀ key : Key, "x-other" ≠ key.name := by
    intro key
    cases key <;> decide
  refine ⟨(hread .mergeInto).trans ?_, (hread .size).trans ?_, (hread .phase).trans ?_, hforeign,
    (hothers "x-other" hforeign).trans ?_⟩
  all_goals decide

end Backlog
