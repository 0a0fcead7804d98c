/-
  Where an item stands in its pipeline, as its readers tell it.

  Program: status, phase, pool, pipeline type and the status to restore are kept in two native fields
  and five extension entries, each of which is read with suspicion.

  Specification: `Item.course` is what the readers make of them.  A write that is none of theirs
  leaves the course alone (`Spares.course`), and each that is one of theirs sets what it is to set
  and nothing else (`course_setStatus`, `course_setPhase`, …).  So from here on an item is told
  by its course.

  The crux is `setBlocked_course`: what a block records is read back when the item is unblocked, so a
  block hides the status of an item and loses nothing of its course.
-/
import Backlog.Proofs.Item.Identity
import Backlog.Proofs.Item.Readers

namespace Backlog

open Text (Vocabulary)

/-- Where an item stands in its pipeline. -/
structure Course where
  status : Status
  /-- The status to restore when the item is unblocked. -/
  blockedFrom : Option Status
  phase : Option String
  pool : Option Pool
  /-- The pipeline that the item asks for. -/
  type : Option String
deriving DecidableEq

namespace Course

/-- The status that counts for the pipeline: that of a blocked item is the one to restore. -/
def standing (c : Course) : Status :=
  if c.status = .blocked then c.blockedFrom.getD .blocked else c.status

theorem standing_of_ne {c : Course} (h : c.status ≠ .blocked) : c.standing = c.status := if_neg h

theorem standing_of_blocked {c : Course} (h : c.status = .blocked) :
    c.standing = c.blockedFrom.getD .blocked := if_pos h

/-- The course of an item that is blocked now, if it was not before. -/
def block (c : Course) : Course :=
  if c.status = .blocked then c else { c with status := .blocked, blockedFrom := some c.status }

theorem block_of_blocked {c : Course} (h : c.status = .blocked) : c.block = c := if_pos h

theorem block_of_ne {c : Course} (h : c.status ≠ .blocked) :
    c.block = { c with status := .blocked, blockedFrom := some c.status } := if_neg h

/-- A block hides the status and loses nothing. -/
@[simp] theorem standing_block (c : Course) : c.block.standing = c.standing := by
  unfold block
  split
  · rfl
  · next h => rw [standing_of_ne h, standing, if_pos rfl, Option.getD_some]

@[simp] theorem phase_block (c : Course) : c.block.phase = c.phase := by
  unfold block
  split <;> rfl

@[simp] theorem pool_block (c : Course) : c.block.pool = c.pool := by
  unfold block
  split <;> rfl

@[simp] theorem type_block (c : Course) : c.block.type = c.type := by
  unfold block
  split <;> rfl

end Course

/-- Every status can be restored but done and blocked. -/
theorem Status.isBlockable_iff {s : Status} : s.isBlockable = true ↔ s ≠ .done ∧ s ≠ .blocked := by
  cases s <;> decide

/-- Whether an update is about the course of an item. -/
def Update.steers : Update → Bool
  | .transition _ | .setPhase _ | .setPhasePool _ | .setPipelineType _ | .setBlocked .. => true
  | .setUnblockContext _ | .assess .. | .setDescription _ | .setTriageRequested _ | .setMergeInto _
  | .setDependencies _ | .addTag _ | .removeTag _ | .setTitle _ | .setPriority _ => false

namespace Item

variable (now : Stamp) (key : Key) (item : Item)

/-- Where the item stands in its pipeline. -/
def course (item : Item) : Course where
  status := item.status
  blockedFrom := item.blockedFrom
  phase := item.phase
  pool := item.phasePool
  type := item.pipelineType

/-! ## What the course is read from -/

section

variable {a b : Item}

/-- The native fields that the course is read from. -/
def natives (item : Item) : NativeStatus × Option NativeStatus := (item.native, item.nativeBlockedFrom)

/-- The entries that the course is read from. -/
def courseKeys : List Key := [.status, .blockedFrom, .phase, .phasePool, .pipelineType]

/-- The course depends on these fields and entries alone. -/
theorem course_congr (hnatives : a.natives = b.natives)
    (hentries : ∀ key ∈ courseKeys, a.extension? key = b.extension? key) : a.course = b.course := by
  have hnative : a.native = b.native := congrArg Prod.fst hnatives
  have hfrom : a.nativeBlockedFrom = b.nativeBlockedFrom := congrArg Prod.snd hnatives
  rw [course, course, Course.mk.injEq]
  exact ⟨status_congr hnative (hentries _ (by decide)), blockedFrom_congr hfrom (hentries _ (by decide)),
    phase_congr (hentries _ (by decide)), phasePool_congr (hentries _ (by decide)),
    pipelineType_congr (hentries _ (by decide))⟩

end

/-! ## Writes of entries -/

@[simp] theorem natives_touch : (item.touch now).natives = item.natives := rfl

@[simp] theorem natives_setNative (status : NativeStatus) :
    (item.setNative now status).natives = (status, item.nativeBlockedFrom) := rfl

@[simp] theorem natives_setEntry (value : Json) : (item.setEntry now key value).natives = item.natives :=
  rfl

@[simp] theorem natives_removeEntry : (item.removeEntry now key).natives = item.natives := by
  unfold removeEntry
  split <;> rfl

@[simp] theorem natives_setText (value : Option String) :
    (item.setText now key value).natives = item.natives := by
  unfold setText
  split <;> simp

/-- The native fields and the other entries are as before. -/
def Spares (key : Key) (before after : Item) : Prop :=
  after.natives = before.natives ∧ ∀ other, other ≠ key → after.extension? other = before.extension? other

theorem spares_setEntry (value : Json) : Spares key item (item.setEntry now key value) :=
  ⟨rfl, fun other h => by rw [extension?_setEntry, if_neg h]⟩

theorem spares_removeEntry : Spares key item (item.removeEntry now key) :=
  ⟨natives_removeEntry now key item, fun other h => by rw [extension?_removeEntry, if_neg h]⟩

theorem spares_setText (value : Option String) : Spares key item (item.setText now key value) :=
  ⟨natives_setText now key item value, fun other h => by rw [extension?_setText, if_neg h]⟩

variable {now key item}

/-- A write of an entry that the course is not read from leaves it alone. -/
theorem Spares.course {after : Item} (h : Spares key item after) (hkey : key ∉ courseKeys) :
    after.course = item.course := by
  refine course_congr h.1 fun other hother => h.2 other ?_
  rintro rfl
  exact hkey hother

/-! ## Writes of phase, pool and pipeline type -/

@[simp] theorem course_setPhase (now : Stamp) (phase : Option String) (item : Item) :
    (item.setPhase now phase).course
      = { item.course with phase := notBlank (phase.map Text.trim) } := by
  obtain ⟨hnatives, hentries⟩ := spares_setText now .phase item phase
  rw [← phase_setPhase now phase item, course, Course.mk.injEq]
  exact ⟨status_congr (congrArg Prod.fst hnatives) (hentries _ (by decide)),
    blockedFrom_congr (congrArg Prod.snd hnatives) (hentries _ (by decide)), rfl,
    phasePool_congr (hentries _ (by decide)), pipelineType_congr (hentries _ (by decide))⟩

@[simp] theorem course_setPhasePool (now : Stamp) (pool : Option Pool) (item : Item) :
    (item.setPhasePool now pool).course = { item.course with pool := pool } := by
  obtain ⟨hnatives, hentries⟩ := spares_setText now .phasePool item (pool.map Text.word)
  rw [course, Course.mk.injEq]
  exact ⟨status_congr (congrArg Prod.fst hnatives) (hentries _ (by decide)),
    blockedFrom_congr (congrArg Prod.snd hnatives) (hentries _ (by decide)),
    phase_congr (hentries _ (by decide)), phasePool_setPhasePool now pool item,
    pipelineType_congr (hentries _ (by decide))⟩

@[simp] theorem course_setPipelineType (now : Stamp) (name : Option String) (item : Item) :
    (item.setPipelineType now name).course
      = { item.course with type := notBlank (name.map Text.trim) } := by
  obtain ⟨hnatives, hentries⟩ := spares_setText now .pipelineType item name
  rw [course, Course.mk.injEq]
  exact ⟨status_congr (congrArg Prod.fst hnatives) (hentries _ (by decide)),
    blockedFrom_congr (congrArg Prod.snd hnatives) (hentries _ (by decide)),
    phase_congr (hentries _ (by decide)), phasePool_congr (hentries _ (by decide)),
    pipelineType_setPipelineType now name item⟩

/-! ## Writes of the status -/

@[simp] theorem natives_setStatus (now : Stamp) (status : Status) (item : Item) :
    (item.setStatus now status).natives = (status.native, item.nativeBlockedFrom) := by
  cases status <;> simp [setStatus, Status.substate?, Status.native]

theorem extension?_setStatus (now : Stamp) (status : Status) (item : Item) (key : Key) :
    (item.setStatus now status).extension? key
      = if key = .status then status.substate?.map Json.text else item.extension? key := by
  unfold setStatus
  cases status.substate? <;> simp

/-- What decides about the status: the native one, and the sub-state beside todo. -/
theorem status_of_written {status : Status} (hnative : item.native = status.native)
    (hentry : item.extension? .status = status.substate?.map Json.text) : item.status = status := by
  rw [Item.status, inspectStatus, hnative, hentry]
  cases status <;> rfl

theorem status_setStatus (now : Stamp) (status : Status) (item : Item) :
    (item.setStatus now status).status = status :=
  status_of_written (congrArg Prod.fst (natives_setStatus now status item))
    ((extension?_setStatus now status item .status).trans (if_pos rfl))

@[simp] theorem course_setStatus (now : Stamp) (status : Status) (item : Item) :
    (item.setStatus now status).course = { item.course with status := status } := by
  have hentries : ∀ key, key ≠ .status →
      (item.setStatus now status).extension? key = item.extension? key :=
    fun key hkey => (extension?_setStatus now status item key).trans (if_neg hkey)
  rw [course, Course.mk.injEq]
  exact ⟨status_setStatus now status item,
    blockedFrom_congr (congrArg Prod.snd (natives_setStatus now status item)) (hentries _ (by decide)),
    phase_congr (hentries _ (by decide)), phasePool_congr (hentries _ (by decide)),
    pipelineType_congr (hentries _ (by decide))⟩

/-- The sub-states are those of work that is to do. -/
theorem native_ofSubstate? {text : String} {status : Status}
    (h : Status.ofSubstate? text = some status) : status.native = .todo := by
  have hmem : status ∈ [Status.new, .scoping, .ready] := List.mem_of_find?_eq_some h
  simp only [List.mem_cons, List.not_mem_nil, or_false] at hmem
  rcases hmem with rfl | rfl | rfl <;> rfl

/-- The native status is that of the status that is read. -/
theorem native_status (item : Item) : item.status.native = item.native := by
  rw [Item.status, inspectStatus]
  cases hnative : item.native with
  | blocked => rfl
  | doing => rfl
  | done => rfl
  | todo =>
    cases hentry : item.extension? .status with
    | none => rfl
    | some value =>
      cases value with
      | text s =>
        cases hsub : Status.ofSubstate? s with
        | none => simp only [hsub]; rfl
        | some status => simp only [hsub, native_ofSubstate? hsub]
      | _ => rfl

/-- An item is blocked exactly when the store says so. -/
theorem native_eq_blocked_iff : item.native = .blocked ↔ item.status = .blocked := by
  rw [← native_status item]
  cases item.status <;> decide

/-- The status to restore is one that an item can be blocked from. -/
theorem isBlockable_of_blockedFrom {status : Status} (h : item.blockedFrom = some status) :
    status.isBlockable = true := by
  rw [blockedFrom, inspectBlockedFrom] at h
  cases hread : inspectMember Status .blockedFrom item with
  | error complaint =>
    rw [hread] at h
    cases h
  | ok read =>
    rw [hread] at h
    cases read with
    | none => cases h
    | some written =>
      have hchecked : settle (if item.nativeBlockedFrom.isNone then .error (.staleBlockedFrom written)
          else if written.isBlockable then .ok (some written) else .error (.unrestorable written))
          = some status := h
      split at hchecked
      · cases hchecked
      · split at hchecked
        · next hblockable =>
          cases hchecked
          exact hblockable
        · cases hchecked

/-- What a block has recorded is what is read back. -/
theorem blockedFrom_of_written {status : Status} (hnative : item.nativeBlockedFrom.isSome = true)
    (hentry : item.extension? .blockedFrom = some (.text (Text.word status)))
    (hblockable : status.isBlockable = true) : item.blockedFrom = some status := by
  have hread : item.inspectBlockedFrom
      = if item.nativeBlockedFrom.isNone then .error (.staleBlockedFrom status)
        else if status.isBlockable then .ok (some status) else .error (.unrestorable status) := by
    rw [inspectBlockedFrom, inspectMember_word hentry]
    rfl
  have hpresent : ¬ item.nativeBlockedFrom.isNone = true := by
    rw [Option.isNone_iff_eq_none]
    intro hnone
    rw [hnone] at hnative
    cases hnative
  rw [blockedFrom, hread, if_neg hpresent, if_pos hblockable]
  rfl

/-! ## Blocking and unblocking -/

theorem natives_blockNative (now : Stamp) (reason : Option String) (item : Item) :
    (item.blockNative now reason).natives
      = (.blocked, if item.native = .blocked then item.nativeBlockedFrom else some item.native) := by
  unfold blockNative
  split
  · next h => rw [natives_touch, natives, h]
  · rfl

theorem natives_unblockNative (now : Stamp) {item : Item} (h : item.native ≠ .blocked) :
    (item.unblockNative now).natives = (item.native, none) := by
  rw [unblockNative, if_neg h]
  rfl

/-- The status to restore is recorded in place of the sub-state. -/
def recordStatus (now : Stamp) (item : Item) : Item :=
  (item.setEntry now .blockedFrom (.text (Text.word item.status))).removeEntry now .status

/-- A block of an item whose status to restore has been recorded. -/
def blockRecorded (now : Stamp) (reason : Option String) (blockedType : Option BlockType)
    (recorded : Item) : Item :=
  ((recorded.blockNative now reason).setMember now .blockedType blockedType).removeEntry now
    .unblockContext

theorem setBlocked_eq (now : Stamp) (reason : Option String) (blockedType : Option BlockType)
    {item : Item} (hopen : item.status ≠ .done) :
    setBlocked now reason blockedType item
      = (.ok (), blockRecorded now reason blockedType
          (if item.status = .blocked then item else item.recordStatus now)) :=
  if_neg hopen

theorem natives_recordStatus (now : Stamp) (item : Item) :
    (item.recordStatus now).natives = item.natives :=
  (natives_removeEntry ..).trans (natives_setEntry ..)

theorem natives_blockRecorded (now : Stamp) (reason : Option String)
    (blockedType : Option BlockType) (recorded : Item) :
    (recorded.blockRecorded now reason blockedType).natives
      = (.blocked,
        if recorded.native = .blocked then recorded.nativeBlockedFrom else some recorded.native) := by
  rw [blockRecorded, natives_removeEntry, setMember, natives_setText, natives_blockNative]

theorem extension?_blockRecorded (now : Stamp) (reason : Option String)
    (blockedType : Option BlockType) (recorded : Item) {key : Key}
    (hkey : key ∉ [Key.blockedType, .unblockContext]) :
    (recorded.blockRecorded now reason blockedType).extension? key = recorded.extension? key := by
  simp only [List.mem_cons, List.not_mem_nil, or_false, not_or] at hkey
  obtain ⟨htype, hcontext⟩ := hkey
  rw [blockRecorded, extension?_removeEntry, if_neg hcontext, setMember, extension?_setText,
    if_neg htype, extension?_blockNative]

theorem not_mem_of_mem_courseKeys {key : Key} (h : key ∈ courseKeys) :
    key ∉ [Key.blockedType, .unblockContext] := by
  revert key
  decide

/-- Blocking an item again leaves its course alone. -/
theorem course_blockRecorded (now : Stamp) (reason : Option String)
    (blockedType : Option BlockType) (hblocked : item.status = .blocked) :
    (item.blockRecorded now reason blockedType).course = item.course := by
  have hnative : item.native = .blocked := native_eq_blocked_iff.mpr hblocked
  refine course_congr ?_ fun key hkey =>
    extension?_blockRecorded now reason blockedType item (not_mem_of_mem_courseKeys hkey)
  rw [natives_blockRecorded, if_pos hnative, natives, hnative]

/-- Blocking an item for the first time records its status. -/
theorem course_blockRecorded_recordStatus (now : Stamp) (reason : Option String)
    (blockedType : Option BlockType) (hopen : item.status ≠ .done)
    (hblocked : item.status ≠ .blocked) :
    ((item.recordStatus now).blockRecorded now reason blockedType).course
      = { item.course with status := .blocked, blockedFrom := some item.status } := by
  have hnative : (item.recordStatus now).native ≠ .blocked := by
    rw [show (item.recordStatus now).native = item.native from
      congrArg Prod.fst (natives_recordStatus now item)]
    exact fun h => hblocked (native_eq_blocked_iff.mp h)
  have hnatives := natives_blockRecorded now reason blockedType (item.recordStatus now)
  rw [if_neg hnative] at hnatives
  have hentries : ∀ key ∈ courseKeys,
      ((item.recordStatus now).blockRecorded now reason blockedType).extension? key
        = if key = .status then none
          else if key = .blockedFrom then some (.text (Text.word item.status))
          else item.extension? key := by
    intro key hkey
    rw [extension?_blockRecorded now reason blockedType _ (not_mem_of_mem_courseKeys hkey), recordStatus,
      extension?_removeEntry, extension?_setEntry]
  have hrecorded : ((item.recordStatus now).blockRecorded now reason blockedType).nativeBlockedFrom
      = some (item.recordStatus now).native := congrArg Prod.snd hnatives
  rw [course, Course.mk.injEq]
  refine ⟨native_eq_blocked_iff.mp (congrArg Prod.fst hnatives), ?_,
    phase_congr (hentries _ (by decide)), phasePool_congr (hentries _ (by decide)),
    pipelineType_congr (hentries _ (by decide))⟩
  exact blockedFrom_of_written (by rw [hrecorded]; rfl) (hentries _ (by decide))
    (Status.isBlockable_iff.mpr ⟨hopen, hblocked⟩)

/-- A block, whatever its reason. -/
theorem setBlocked_course (now : Stamp) (reason : Option String) (blockedType : Option BlockType)
    (hopen : item.status ≠ .done) :
    ∃ after, setBlocked now reason blockedType item = (.ok (), after) ∧
      after.course = item.course.block := by
  refine ⟨_, setBlocked_eq now reason blockedType hopen, ?_⟩
  by_cases hblocked : item.status = .blocked
  · rw [if_pos hblocked, Course.block_of_blocked hblocked]
    exact course_blockRecorded now reason blockedType hblocked
  · rw [if_neg hblocked, Course.block_of_ne hblocked]
    exact course_blockRecorded_recordStatus now reason blockedType hopen hblocked

/-- What an accepted block does. -/
theorem setBlocked_inv {reason : Option String} {blockedType : Option BlockType} {after : Item}
    (h : setBlocked now reason blockedType item = (.ok (), after)) :
    after.course = item.course.block := by
  by_cases hdone : item.status = .done
  · rw [setBlocked, if_pos hdone] at h
    cases h
  · obtain ⟨blocked, hblocked, hcourse⟩ := setBlocked_course now reason blockedType hdone
    rw [hblocked] at h
    cases h
    exact hcourse

/-- The item without what a block has recorded of it. -/
def forgetBlock (now : Stamp) (restored : Status) (item : Item) : Item :=
  ((((item.setStatus now restored).removeEntry now .blockedFrom).removeEntry now
    .blockedType).removeEntry now .unblockContext).unblockNative now

theorem natives_forgetBlock (now : Stamp) {restored : Status} (item : Item)
    (hblockable : restored.isBlockable = true) :
    (item.forgetBlock now restored).natives = (restored.native, none) := by
  -- the status is already the restored one when the native block is lifted
  have hbefore : ((((item.setStatus now restored).removeEntry now .blockedFrom).removeEntry now
      .blockedType).removeEntry now .unblockContext).natives
      = (restored.native, item.nativeBlockedFrom) := by
    rw [natives_removeEntry, natives_removeEntry, natives_removeEntry, natives_setStatus]
  rw [forgetBlock, natives_unblockNative]
  · exact congrArg (fun n => (n.1, none)) hbefore
  · rw [show Item.native _ = restored.native from congrArg Prod.fst hbefore]
    cases restored <;> first | decide | cases hblockable

theorem extension?_forgetBlock (now : Stamp) (restored : Status) (item : Item) (key : Key) :
    (item.forgetBlock now restored).extension? key
      = if key ∈ [Key.blockedFrom, .blockedType, .unblockContext] then none
        else if key = .status then restored.substate?.map Json.text
        else item.extension? key := by
  rw [forgetBlock, extension?_unblockNative, extension?_removeEntry, extension?_removeEntry,
    extension?_removeEntry, extension?_setStatus]
  cases key <;> rfl

theorem course_forgetBlock (now : Stamp) {restored : Status} (item : Item)
    (hblockable : restored.isBlockable = true) :
    (item.forgetBlock now restored).course
      = { item.course with status := restored, blockedFrom := none } := by
  have hnatives := natives_forgetBlock now item hblockable
  have hentries := extension?_forgetBlock now restored item
  rw [course, Course.mk.injEq]
  refine ⟨status_of_written (congrArg Prod.fst hnatives) (hentries _), ?_,
    phase_congr (hentries _), phasePool_congr (hentries _), pipelineType_congr (hentries _)⟩
  rw [blockedFrom, inspectBlockedFrom, inspectMember_none (hentries _)]
  rfl

/-- What an unblock makes of an item, which keeps the answer, if there is one. -/
theorem unblock_eq (now : Stamp) (context : Option String) {restored : Status}
    (hblocked : item.status = .blocked) (hrestored : item.blockedFrom = some restored) :
    item.unblock now context = (.ok restored,
      ((notBlank context).or item.unblockContext).elim (item.forgetBlock now restored) fun text =>
        (item.forgetBlock now restored).setEntry now .unblockContext (.text text)) := by
  simp only [unblock, hblocked, hrestored]
  cases (notBlank context).or item.unblockContext <;> rfl

/-- An unblocked item is back at the status that was recorded. -/
theorem unblock_course (now : Stamp) (context : Option String) {restored : Status}
    (hblocked : item.status = .blocked) (hrestored : item.blockedFrom = some restored) :
    ∃ after, unblock now context item = (.ok restored, after) ∧
      after.course = { item.course with status := restored, blockedFrom := none } := by
  have hforget := course_forgetBlock now item (isBlockable_of_blockedFrom hrestored)
  refine ⟨_, unblock_eq now context hblocked hrestored, ?_⟩
  -- the answer that unblocks the item is kept, and is no part of its course
  cases (notBlank context).or item.unblockContext with
  | none => exact hforget
  | some text =>
    have hspares := spares_setEntry now .unblockContext (item.forgetBlock now restored) (.text text)
    exact (hspares.course (by decide)).trans hforget

/-! ## Everything else that is written -/

theorem course_touch (now : Stamp) (item : Item) : (item.touch now).course = item.course := rfl

theorem course_recordMember {α : Type} [Vocabulary α] (now : Stamp) (value : Option α)
    (item : Item) (hkey : key ∉ courseKeys) :
    (item.recordMember now key value).course = item.course := by
  cases value with
  | none => rfl
  | some a => exact (spares_setEntry now key item _).course hkey

theorem course_setStructured (now : Stamp) (description : Description) (item : Item) :
    (item.setStructured now description).course = item.course :=
  (spares_setEntry now .description item description.toJson).course (by decide)

/-- Taking in another item leaves the course alone. -/
theorem course_absorb (now : Stamp) (source target : Item) :
    (absorb now source target).course = target.course := by
  simp only [absorb, course_touch]
  split
  · rfl
  · exact course_setStructured now _ _

/-- Depending on another item leaves the course alone. -/
theorem course_redirect (now : Stamp) (source target : String) (item : Item) :
    (item.redirect now source target).course = item.course := by
  unfold redirect
  split <;> rfl

theorem course_retarget (now : Stamp) (source target : String) (item : Item) :
    (item.retarget now source target).course = item.course := by
  unfold retarget
  split
  · rfl
  · exact course_redirect now source target item

/-- A merge leaves the course of an item that stays alone. -/
theorem course_merged (now : Stamp) (source target : String) (leaving item : Item) :
    (merged now source target leaving item).course = item.course := by
  unfold merged
  split
  · exact course_absorb now leaving item
  · exact course_redirect now source target item

theorem course_startPhase (now : Stamp) (revision : Option String) (item : Item) :
    (item.startPhase now revision).2.course = item.course := by
  unfold startPhase
  split
  · rfl
  · split
    · exact (spares_setText now .lastPhaseCommit item revision).course (by decide)
    · exact (spares_setText now .lastPhaseCommit item revision).course (by decide)
    · rfl

/-- The other updates leave it alone. -/
theorem course_applyUpdate (now : Stamp) {u : Update} (item : Item) (h : u.steers = false) :
    (applyUpdate now u item).2.course = item.course := by
  cases u with
  | setUnblockContext context =>
    simp only [applyUpdate]
    split
    · rfl
    · exact (spares_setText now .unblockContext item context).course (by decide)
  | assess impact size risk review =>
    have hassessed : (((item.recordMember now .impact impact).recordMember now .size
        size).recordMember now .risk risk).course = item.course := by
      rw [course_recordMember now risk _ (by decide), course_recordMember now size _ (by decide),
        course_recordMember now impact _ (by decide)]
    cases review with
    | none => exact hassessed
    | some b =>
      exact ((spares_setEntry now .requiresHumanReview _ (.bool b)).course (by decide)).trans hassessed
  | setDescription description => exact course_setStructured now description item
  | setTriageRequested requested =>
    cases requested with
    | false => exact (spares_removeEntry now .triageRequested item).course (by decide)
    | true => exact (spares_setEntry now .triageRequested item (.bool true)).course (by decide)
  | setMergeInto target =>
    simp only [applyUpdate]
    split
    · rfl
    · exact (spares_setText now .mergeInto item target).course (by decide)
  | setDependencies dependencies => rfl
  | addTag tag =>
    simp only [applyUpdate]
    split <;> rfl
  | removeTag tag => rfl
  | setTitle title =>
    simp only [applyUpdate]
    split <;> rfl
  | setPriority priority => rfl
  | _ => cases h

/-! ## New items -/

/-- A new item has run nothing yet. -/
theorem course_draft (draft : Draft) (id : String) (now : Stamp) :
    (draft.item id now).course
      = { status := .new, blockedFrom := none, phase := none, pool := none,
          type := notBlank (draft.pipelineType.map Text.trim) } := by
  have hbare : ({ Item.bare id draft.title now with
      priority := draft.priority
      tags := draft.tags
      dependencies := draft.dependencies.filter (· ≠ id) } : Item).course
      = { status := .new, blockedFrom := none, phase := none, pool := none, type := none } := rfl
  simp only [Draft.item, setMember]
  rw [(spares_setText now .risk _ _).course (by decide),
    (spares_setText now .size _ _).course (by decide),
    (spares_setText now .impact _ _).course (by decide),
    (spares_setText now .origin _ _).course (by decide), course_setPipelineType]
  cases draft.description with
  | none => rw [course_setStatus, hbare]
  | some description => rw [course_setStructured, course_setStatus, hbare]

end Item

end Backlog
