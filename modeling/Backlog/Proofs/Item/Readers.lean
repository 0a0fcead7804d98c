/-
  What the readers of an item read.

  Program: each of the sixteen entries has a reader of its own, which looks at it with suspicion.  Two of
  them look at a native field, too.

  Specification: `Item.read` is all of the readers in one.  A reader depends on its entry and on these
  native fields alone (`read_congr`), so it does not notice what is written elsewhere.  And it gives
  back what the writer of its entry was given, as far as that makes sense (`phase_setPhase`,
  `structured_setStructured`, …).

  Texts are trimmed by the writers and not by the readers; blank ones are dropped by both.
-/
import Backlog.Proofs.Item.Writes

namespace Backlog

open Text (Vocabulary LawfulVocabulary)

/-! ## All readers in one -/

/-- What the entry under a key is read as. -/
abbrev Key.Reading : Key → Type
  | .status => Status
  | .blockedFrom => Option Status
  | .blockedType => Option BlockType
  | .phasePool => Option Pool
  | .description => Option Description
  | .impact | .risk => Option Level
  | .size => Option Size
  | .requiresHumanReview | .triageRequested => Bool
  | .phase | .pipelineType | .lastPhaseCommit | .unblockContext | .origin | .mergeInto =>
    Option String

namespace Item

/-- What the reader for a key makes of an item. -/
def read (item : Item) : (key : Key) → key.Reading
  | .status => item.status
  | .phase => item.phase
  | .phasePool => item.phasePool
  | .pipelineType => item.pipelineType
  | .lastPhaseCommit => item.lastPhaseCommit
  | .blockedFrom => item.blockedFrom
  | .blockedType => item.blockedType
  | .unblockContext => item.unblockContext
  | .description => item.structured
  | .impact => item.impact
  | .size => item.size
  | .risk => item.risk
  | .requiresHumanReview => item.requiresHumanReview
  | .origin => item.origin
  | .triageRequested => item.triageRequested
  | .mergeInto => item.mergeInto

/-! ## What a reader depends on -/

section

variable {a b : Item}

theorem inspectText_congr {key : Key} (h : a.extension? key = b.extension? key) :
    inspectText key a = inspectText key b := by
  simp only [inspectText, h]

theorem inspectMember_congr {α : Type} [Vocabulary α] {key : Key}
    (h : a.extension? key = b.extension? key) : inspectMember α key a = inspectMember α key b := by
  simp only [inspectMember, inspectText_congr h]

theorem inspectFlag_congr {key : Key} (h : a.extension? key = b.extension? key) :
    inspectFlag key a = inspectFlag key b := by
  simp only [inspectFlag, h]

theorem status_congr (hnative : a.native = b.native)
    (hentry : a.extension? .status = b.extension? .status) : a.status = b.status := by
  simp only [status, inspectStatus, hnative, hentry]

theorem blockedFrom_congr (hnative : a.nativeBlockedFrom = b.nativeBlockedFrom)
    (hentry : a.extension? .blockedFrom = b.extension? .blockedFrom) :
    a.blockedFrom = b.blockedFrom := by
  simp only [blockedFrom, inspectBlockedFrom, inspectMember_congr hentry, hnative]

theorem phase_congr (hentry : a.extension? .phase = b.extension? .phase) : a.phase = b.phase := by
  simp only [phase, inspectPhase, inspectText_congr hentry]

theorem phasePool_congr (hentry : a.extension? .phasePool = b.extension? .phasePool) :
    a.phasePool = b.phasePool := by
  simp only [phasePool, inspectMember_congr hentry]

theorem pipelineType_congr (hentry : a.extension? .pipelineType = b.extension? .pipelineType) :
    a.pipelineType = b.pipelineType := by
  simp only [pipelineType, inspectText_congr hentry]

theorem unblockContext_congr (hentry : a.extension? .unblockContext = b.extension? .unblockContext) :
    a.unblockContext = b.unblockContext := by
  simp only [unblockContext, inspectText_congr hentry]

theorem structured_congr (hentry : a.extension? .description = b.extension? .description) :
    a.structured = b.structured := by
  simp only [structured, inspectStructured, hentry]

theorem mergeInto_congr (hentry : a.extension? .mergeInto = b.extension? .mergeInto) :
    a.mergeInto = b.mergeInto := by
  simp only [mergeInto, inspectText_congr hentry]

/-- A reader depends on its entry, and on the native status and the native one to restore. -/
theorem read_congr {key : Key} (hnative : a.native = b.native)
    (hfrom : a.nativeBlockedFrom = b.nativeBlockedFrom)
    (hentry : a.extension? key = b.extension? key) : a.read key = b.read key := by
  cases key with
  | status => exact status_congr hnative hentry
  | blockedFrom => exact blockedFrom_congr hfrom hentry
  | phase => exact phase_congr hentry
  | phasePool => exact phasePool_congr hentry
  | pipelineType => exact pipelineType_congr hentry
  | unblockContext => exact unblockContext_congr hentry
  | description => exact structured_congr hentry
  | mergeInto => exact mergeInto_congr hentry
  | lastPhaseCommit =>
    simp only [read, lastPhaseCommit, inspectLastPhaseCommit, inspectText_congr hentry]
  | origin => simp only [read, origin, inspectText_congr hentry]
  | blockedType => simp only [read, blockedType, inspectMember_congr hentry]
  | impact => simp only [read, impact, inspectMember_congr hentry]
  | size => simp only [read, size, inspectMember_congr hentry]
  | risk => simp only [read, risk, inspectMember_congr hentry]
  | requiresHumanReview => simp only [read, requiresHumanReview, inspectFlag_congr hentry]
  | triageRequested => simp only [read, triageRequested, inspectFlag_congr hentry]

end

/-! ## Entries of a kind -/

variable {key : Key} {item : Item}

theorem isBlank_of_notBlank {text : Option String} {s : String} (h : notBlank text = some s) :
    Text.isBlank s = false := by
  obtain ⟨-, hs⟩ := Option.filter_eq_some_iff.mp h
  simpa using hs

theorem notBlank_some {s : String} (h : Text.isBlank s = false) : notBlank (some s) = some s := by
  rw [notBlank, Option.filter_some, h]
  rfl

theorem notBlank_notBlank (text : Option String) : notBlank (notBlank text) = notBlank text := by
  rw [notBlank, notBlank, Option.filter_filter]
  simp

theorem inspectText_none (h : item.extension? key = none) : inspectText key item = .ok none := by
  simp only [inspectText, h]

theorem inspectText_text {s : String} (h : item.extension? key = some (.text s)) :
    inspectText key item = .ok (some s) := by
  simp only [inspectText, h]

theorem inspectText_of_entry {text : Option String}
    (h : item.extension? key = text.map Json.text) : inspectText key item = .ok text := by
  cases text with
  | none => exact inspectText_none h
  | some s => exact inspectText_text h

theorem inspectMember_none {α : Type} [Vocabulary α] (h : item.extension? key = none) :
    inspectMember α key item = .ok none := by
  rw [inspectMember, inspectText_none h]
  rfl

theorem inspectMember_word {α : Type} [Vocabulary α] [LawfulVocabulary α] {a : α}
    (h : item.extension? key = some (.text (Text.word a))) :
    inspectMember α key item = .ok (some a) := by
  rw [inspectMember, inspectText_text h]
  simp only [bind, Except.bind, Text.readWord_word]
  rfl

/-! ## What is read back -/

@[simp] theorem extension?_setText (now : Stamp) (key : Key) (item : Item) (other : Key)
    (value : Option String) :
    (item.setText now key value).extension? other
      = if other = key then (notBlank (value.map Text.trim)).map Json.text
        else item.extension? other := by
  unfold setText
  split
  · next text h => rw [extension?_setEntry, h]; rfl
  · next h => rw [extension?_removeEntry, h]; rfl

/-- A text is stored trimmed, and a blank one not at all. -/
theorem inspectText_setText (now : Stamp) (key : Key) (item : Item) (value : Option String) :
    inspectText key (item.setText now key value) = .ok (notBlank (value.map Text.trim)) :=
  inspectText_of_entry ((extension?_setText now key item key value).trans (if_pos rfl))

theorem notBlank_setText (now : Stamp) (key : Key) (item : Item) (value : Option String) :
    notBlank (settle (inspectText key (item.setText now key value)))
      = notBlank (value.map Text.trim) := by
  rw [inspectText_setText]
  exact notBlank_notBlank _

theorem pipelineType_setPipelineType (now : Stamp) (name : Option String) (item : Item) :
    (item.setPipelineType now name).pipelineType = notBlank (name.map Text.trim) :=
  notBlank_setText now .pipelineType item name

theorem unblockContext_setUnblockContext (now : Stamp) (context : Option String) (item : Item) :
    (item.setUnblockContext now context).unblockContext = notBlank (context.map Text.trim) :=
  notBlank_setText now .unblockContext item context

theorem mergeInto_setMergeInto (now : Stamp) (target : Option String) (item : Item) :
    (item.setMergeInto now target).mergeInto = notBlank (target.map Text.trim) :=
  notBlank_setText now .mergeInto item target

theorem phase_setPhase (now : Stamp) (phase : Option String) (item : Item) :
    (item.setPhase now phase).phase = notBlank (phase.map Text.trim) := by
  rw [Item.phase, inspectPhase, setPhase, inspectText_setText]
  cases hphase : notBlank (phase.map Text.trim) with
  | none => rfl
  | some text =>
    show settle (if Text.isBlank text then .error .emptyPhase else .ok (some text)) = some text
    rw [isBlank_of_notBlank hphase]
    rfl

theorem lastPhaseCommit_setLastPhaseCommit (now : Stamp) (revision : Option String) (item : Item) :
    (item.setLastPhaseCommit now revision).lastPhaseCommit
      = (notBlank (revision.map Text.trim)).filter isRevision := by
  rw [lastPhaseCommit, inspectLastPhaseCommit, setLastPhaseCommit, inspectText_setText]
  cases notBlank (revision.map Text.trim) with
  | none => rfl
  | some text =>
    show settle (if isRevision text then .ok (some text) else .error (.malformedCommit text)) = _
    rw [Option.filter_some]
    split <;> rfl

theorem phasePool_setPhasePool (now : Stamp) (pool : Option Pool) (item : Item) :
    (item.setPhasePool now pool).phasePool = pool := by
  have hentry : (item.setPhasePool now pool).extension? .phasePool
      = (notBlank ((pool.map Text.word).map Text.trim)).map Json.text :=
    (extension?_setText now .phasePool item .phasePool _).trans (if_pos rfl)
  cases pool with
  | none =>
    rw [phasePool, inspectMember_none hentry]
    rfl
  | some pool =>
    have hword : notBlank (some (Text.trim (Text.word pool))) = some (Text.word pool) := by
      cases pool <;> decide
    have hentry' := hentry.trans (congrArg (Option.map Json.text) hword)
    rw [phasePool, inspectMember_word hentry']
    rfl

theorem triageRequested_setTriageRequested (now : Stamp) (requested : Bool) (item : Item) :
    (item.setTriageRequested now requested).triageRequested = requested := by
  have hentry : (item.setTriageRequested now requested).extension? .triageRequested
      = if requested then some (.bool true) else none := by
    cases requested with
    | false => exact (extension?_removeEntry ..).trans (if_pos rfl)
    | true => exact (extension?_setEntry ..).trans (if_pos rfl)
  rw [triageRequested, inspectFlag, hentry]
  cases requested <;> rfl

theorem structured_of_entry {item : Item} {description : Description}
    (h : item.extension? .description = some description.toJson) :
    item.structured = some description := by
  simp only [structured, inspectStructured, h, Description.ofJson?_toJson, settle]

theorem structured_setStructured (now : Stamp) (description : Description) (item : Item) :
    (item.setStructured now description).structured = some description :=
  structured_of_entry ((extension?_setEntry now ..).trans (if_pos rfl))

end Item

end Backlog
