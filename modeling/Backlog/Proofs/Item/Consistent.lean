/-
  Facts of an item that are kept twice.

  Program: the status of an item, the status to restore and the description are kept in native fields,
  which every reader of the store understands, and in extension entries, which say more.  Each change
  writes some of the fields and some of the entries.

  Specification: whatever is done to an item from its beginning, accepted or refused, the two agree
  (`Item.consistent_after`), and so they tell the same (`Item.IsConsistent.tellsTheSame`).

  What has to agree is said for blocked items and for all others (`Item.IsConsistent`).  A change that
  writes none of these fields and entries keeps the agreement (`Resembles`), so there are four writes
  to look at: of a status, of a block, of its end and of a description.
-/
import Backlog.Proofs.Item.Moves

namespace Backlog

open Text (Vocabulary)

namespace Item

variable {now : Stamp} {item after : Item} {key : Key}

/-! ## Agreement -/

/-- Nothing is left of a block. -/
structure IsFree (item : Item) : Prop where
  entry : item.extension? .blockedFrom = none
  native : item.nativeBlockedFrom = none
  type : item.extension? .blockedType = none
  reason : item.blockedReason = none

/-- A block has recorded what is to be restored. -/
structure Records (item : Item) (restored : Status) : Prop where
  blockable : restored.isBlockable = true
  entry : item.extension? .blockedFrom = some (.text (Text.word restored))
  native : item.nativeBlockedFrom = some restored.native

/-- A structured description has its context as the description in one line. -/
def IsDescribed (item : Item) : Prop :=
  ∀ description, item.structured = some description →
    item.description = if Text.isBlank description.context then none else some description.context

/-- The native fields tell the same as the entries, and what belongs to a block is there as long as
    the item is blocked. -/
structure IsConsistent (item : Item) : Prop where
  substate : item.extension? .status = item.status.substate?.map Json.text
  blocked : item.status = .blocked → ∃ restored, item.Records restored
  free : item.status ≠ .blocked → item.IsFree
  described : item.IsDescribed

/-- The native fields that tell something that an entry tells, too. -/
def nativeFacts (item : Item) : (NativeStatus × Option NativeStatus) × Option String × Option String :=
  (item.natives, item.blockedReason, item.description)

/-- The entries that tell something that a native field tells, too. -/
def factKeys : List Key := [.status, .blockedFrom, .blockedType, .description]

/-- The one item was written from the other, but none of these fields and entries was. -/
structure Resembles (item after : Item) : Prop where
  facts : after.nativeFacts = item.nativeFacts
  entries : ∀ key ∈ factKeys, after.extension? key = item.extension? key

theorem IsDescribed.congr (h : item.IsDescribed)
    (hentry : after.extension? .description = item.extension? .description)
    (hnative : after.description = item.description) : after.IsDescribed := by
  intro description hstructured
  rw [structured_congr hentry] at hstructured
  rw [hnative]
  exact h description hstructured

theorem Resembles.status (h : Resembles item after) : after.status = item.status :=
  status_congr (congrArg (·.1.1) h.facts) (h.entries _ (by decide))

theorem IsConsistent.of_resembles (h : item.IsConsistent) (hsame : Resembles item after) :
    after.IsConsistent := by
  have hfrom : after.nativeBlockedFrom = item.nativeBlockedFrom := congrArg (·.1.2) hsame.facts
  have hreason : after.blockedReason = item.blockedReason := congrArg (·.2.1) hsame.facts
  have hentry : after.extension? .blockedFrom = item.extension? .blockedFrom :=
    hsame.entries _ (by decide)
  refine ⟨?substate, ?blocked, ?free, ?described⟩
  case substate =>
    rw [hsame.entries _ (by decide), hsame.status]
    exact h.substate
  case blocked =>
    rw [hsame.status]
    intro hblocked
    obtain ⟨restored, hrecords⟩ := h.blocked hblocked
    exact ⟨restored, hrecords.blockable, hentry.trans hrecords.entry, hfrom.trans hrecords.native⟩
  case free =>
    rw [hsame.status]
    intro hopen
    have hfree := h.free hopen
    exact ⟨hentry.trans hfree.entry, hfrom.trans hfree.native,
      (hsame.entries _ (by decide)).trans hfree.type, hreason.trans hfree.reason⟩
  case described =>
    exact h.described.congr (hsame.entries _ (by decide)) (congrArg (·.2.2) hsame.facts)

/-! ## Writes of other entries -/

@[simp] theorem nativeFacts_setEntry (now : Stamp) (key : Key) (value : Json) (item : Item) :
    (item.setEntry now key value).nativeFacts = item.nativeFacts := rfl

@[simp] theorem nativeFacts_removeEntry (now : Stamp) (key : Key) (item : Item) :
    (item.removeEntry now key).nativeFacts = item.nativeFacts := by
  unfold removeEntry
  split <;> rfl

@[simp] theorem nativeFacts_setText (now : Stamp) (key : Key) (value : Option String) (item : Item) :
    (item.setText now key value).nativeFacts = item.nativeFacts := by
  unfold setText
  split <;> simp

theorem nativeFacts_recordMember {α : Type} [Vocabulary α] (now : Stamp) (key : Key) (value : Option α)
    (item : Item) : (item.recordMember now key value).nativeFacts = item.nativeFacts := by
  cases value <;> rfl

@[simp] theorem nativeFacts_setStatus (now : Stamp) (status : Status) (item : Item) :
    (item.setStatus now status).nativeFacts
      = ((status.native, item.nativeBlockedFrom), item.blockedReason, item.description) := by
  cases status <;> simp [setStatus, Status.substate?, Status.native] <;> rfl

@[simp] theorem description_removeEntry (now : Stamp) (key : Key) (item : Item) :
    (item.removeEntry now key).description = item.description :=
  congrArg (·.2.2) (nativeFacts_removeEntry now key item)

@[simp] theorem description_setText (now : Stamp) (key : Key) (value : Option String) (item : Item) :
    (item.setText now key value).description = item.description :=
  congrArg (·.2.2) (nativeFacts_setText now key value item)

@[simp] theorem description_setStatus (now : Stamp) (status : Status) (item : Item) :
    (item.setStatus now status).description = item.description :=
  congrArg (·.2.2) (nativeFacts_setStatus now status item)

@[simp] theorem description_blockNative (now : Stamp) (reason : Option String) (item : Item) :
    (item.blockNative now reason).description = item.description := by
  unfold blockNative
  split <;> rfl

@[simp] theorem description_unblockNative (now : Stamp) (item : Item) :
    (item.unblockNative now).description = item.description := by
  unfold unblockNative
  split <;> rfl

theorem Resembles.refl (item : Item) : Resembles item item := ⟨rfl, fun _ _ => rfl⟩

theorem Resembles.trans {between : Item} (h : Resembles item between) (h' : Resembles between after) :
    Resembles item after :=
  ⟨h'.facts.trans h.facts, fun key hkey => (h'.entries key hkey).trans (h.entries key hkey)⟩

theorem Spares.resembles (h : Spares key item after) (hfacts : after.nativeFacts = item.nativeFacts)
    (hkey : key ∉ factKeys) : Resembles item after := by
  refine ⟨hfacts, fun other hother => h.2 other ?_⟩
  rintro rfl
  exact hkey hother

theorem resembles_touch (now : Stamp) (item : Item) : Resembles item (item.touch now) :=
  ⟨rfl, fun _ _ => rfl⟩

theorem resembles_setEntry (now : Stamp) (value : Json) (item : Item) (hkey : key ∉ factKeys) :
    Resembles item (item.setEntry now key value) :=
  (spares_setEntry now key item value).resembles rfl hkey

theorem resembles_removeEntry (now : Stamp) (item : Item) (hkey : key ∉ factKeys) :
    Resembles item (item.removeEntry now key) :=
  (spares_removeEntry now key item).resembles (nativeFacts_removeEntry now key item) hkey

theorem resembles_setText (now : Stamp) (value : Option String) (item : Item) (hkey : key ∉ factKeys) :
    Resembles item (item.setText now key value) :=
  (spares_setText now key item value).resembles (nativeFacts_setText now key value item) hkey

theorem resembles_recordMember {α : Type} [Vocabulary α] (now : Stamp) (value : Option α) (item : Item)
    (hkey : key ∉ factKeys) : Resembles item (item.recordMember now key value) := by
  cases value with
  | none => exact .refl item
  | some a => exact resembles_setEntry now _ item hkey

/-! ## The four writes -/

theorem consistent_setStatus (now : Stamp) {status : Status} (hstatus : status ≠ .blocked)
    (hfree : item.IsFree) (hdescribed : item.IsDescribed) :
    (item.setStatus now status).IsConsistent := by
  have hentry := extension?_setStatus now status item
  have hfacts := nativeFacts_setStatus now status item
  have hfrom : (item.setStatus now status).nativeBlockedFrom = item.nativeBlockedFrom :=
    congrArg (·.1.2) hfacts
  have hreason : (item.setStatus now status).blockedReason = item.blockedReason :=
    congrArg (·.2.1) hfacts
  refine ⟨?substate, ?blocked, fun _ => ?free, ?described⟩
  case substate =>
    rw [status_setStatus]
    exact hentry .status
  case blocked =>
    rw [status_setStatus]
    intro hblocked
    exact absurd hblocked hstatus
  case free =>
    exact ⟨(hentry .blockedFrom).trans hfree.entry, hfrom.trans hfree.native,
      (hentry .blockedType).trans hfree.type, hreason.trans hfree.reason⟩
  case described =>
    exact hdescribed.congr (hentry .description) (description_setStatus now status item)

theorem consistent_setStructured (h : item.IsConsistent) (now : Stamp) (description : Description) :
    (item.setStructured now description).IsConsistent := by
  have hstatus : (item.setStructured now description).status = item.status :=
    congrArg Course.status (course_setStructured now description item)
  have hentry : ∀ key, (item.setStructured now description).extension? key
      = if key = .description then some description.toJson else item.extension? key := fun key =>
    extension?_setEntry now .description key description.toJson item
  refine ⟨?substate, ?blocked, ?free, ?described⟩
  case substate =>
    rw [hstatus]
    exact (hentry .status).trans h.substate
  case blocked =>
    rw [hstatus]
    intro hblocked
    obtain ⟨restored, hrecords⟩ := h.blocked hblocked
    exact ⟨restored, hrecords.blockable, (hentry .blockedFrom).trans hrecords.entry, hrecords.native⟩
  case free =>
    rw [hstatus]
    intro hopen
    have hfree := h.free hopen
    exact ⟨(hentry .blockedFrom).trans hfree.entry, hfree.native,
      (hentry .blockedType).trans hfree.type, hfree.reason⟩
  case described =>
    intro written hwritten
    have hread := structured_setStructured now description item
    obtain rfl : written = description := Option.some.inj (hwritten.symm.trans hread)
    rfl

/-- A block of an item whose status to restore has been recorded. -/
theorem consistent_blockRecorded {recorded : Item} {restored : Status} (now : Stamp)
    (reason : Option String) (blockedType : Option BlockType) (hblockable : restored.isBlockable = true)
    (hsubstate : recorded.extension? .status = none)
    (hentry : recorded.extension? .blockedFrom = some (.text (Text.word restored)))
    (hnative : (if recorded.native = .blocked then recorded.nativeBlockedFrom else some recorded.native)
      = some restored.native)
    (hdescribed : recorded.IsDescribed) :
    (recorded.blockRecorded now reason blockedType).IsConsistent := by
  have hnatives := natives_blockRecorded now reason blockedType recorded
  have hstatus : (recorded.blockRecorded now reason blockedType).status = .blocked :=
    native_eq_blocked_iff.mp (congrArg Prod.fst hnatives)
  have hentries : ∀ key ∈ [Key.status, .blockedFrom, .description],
      (recorded.blockRecorded now reason blockedType).extension? key = recorded.extension? key := by
    intro key hkey
    refine extension?_blockRecorded now reason blockedType recorded ?_
    revert key
    decide
  have hdescription : (recorded.blockRecorded now reason blockedType).description
      = recorded.description := by
    rw [blockRecorded, description_removeEntry, setMember, description_setText,
      description_blockNative]
  refine ⟨?substate, fun _ => ⟨restored, ?records⟩, fun hopen => absurd hstatus hopen, ?described⟩
  case substate =>
    rw [hstatus]
    exact (hentries _ (by decide)).trans hsubstate
  case records =>
    exact ⟨hblockable, (hentries _ (by decide)).trans hentry,
      (congrArg Prod.snd hnatives).trans hnative⟩
  case described => exact hdescribed.congr (hentries _ (by decide)) hdescription

theorem consistent_setBlocked (h : item.IsConsistent) (now : Stamp) (reason : Option String)
    (blockedType : Option BlockType) : (setBlocked now reason blockedType item).2.IsConsistent := by
  by_cases hdone : item.status = .done
  · rw [setBlocked, if_pos hdone]
    exact h
  rw [setBlocked_eq now reason blockedType hdone]
  by_cases hblocked : item.status = .blocked
  · -- what the block before has recorded is still there
    rw [if_pos hblocked]
    obtain ⟨restored, hrecords⟩ := h.blocked hblocked
    have hsubstate := h.substate
    rw [hblocked] at hsubstate
    exact consistent_blockRecorded now reason blockedType hrecords.blockable hsubstate hrecords.entry
      ((if_pos (native_eq_blocked_iff.mpr hblocked)).trans hrecords.native) h.described
  · rw [if_neg hblocked]
    have hnative : (item.recordStatus now).native = item.native :=
      congrArg Prod.fst (natives_recordStatus now item)
    have hopen : (item.recordStatus now).native ≠ .blocked := by
      rw [hnative]
      exact fun hnative => hblocked (native_eq_blocked_iff.mp hnative)
    have hentry : ∀ key, (item.recordStatus now).extension? key
        = if key = .status then none
          else if key = .blockedFrom then some (.text (Text.word item.status))
          else item.extension? key := by
      intro key
      rw [recordStatus, extension?_removeEntry, extension?_setEntry]
    have hdescription : (item.recordStatus now).description = item.description := by
      rw [recordStatus, description_removeEntry]
      rfl
    refine consistent_blockRecorded now reason blockedType
      (Status.isBlockable_iff.mpr ⟨hdone, hblocked⟩) (hentry .status) (hentry .blockedFrom) ?_
      (h.described.congr (hentry .description) hdescription)
    rw [if_neg hopen, hnative, native_status]

theorem consistent_forgetBlock (h : item.IsConsistent) (now : Stamp) {restored : Status}
    (hblockable : restored.isBlockable = true) : (item.forgetBlock now restored).IsConsistent := by
  have hnatives := natives_forgetBlock now item hblockable
  have hentry := extension?_forgetBlock now restored item
  have hstatus : (item.forgetBlock now restored).status = restored :=
    status_of_written (congrArg Prod.fst hnatives) (hentry .status)
  have hreason : (item.forgetBlock now restored).blockedReason = none := by
    rw [forgetBlock, unblockNative]
    split <;> rfl
  have hdescription : (item.forgetBlock now restored).description = item.description := by
    rw [forgetBlock, description_unblockNative, description_removeEntry, description_removeEntry,
      description_removeEntry, description_setStatus]
  refine ⟨?substate, ?blocked, fun _ => ?free, ?described⟩
  case substate =>
    rw [hstatus]
    exact hentry .status
  case blocked =>
    rw [hstatus]
    intro hblocked
    exact absurd hblocked (Status.isBlockable_iff.mp hblockable).2
  case free =>
    exact ⟨hentry .blockedFrom, congrArg Prod.snd hnatives, hentry .blockedType, hreason⟩
  case described => exact h.described.congr (hentry .description) hdescription

theorem consistent_unblock (h : item.IsConsistent) (now : Stamp) (context : Option String) :
    (item.unblock now context).2.IsConsistent := by
  by_cases hblocked : item.status = .blocked
  · cases hrestored : item.blockedFrom with
    | none =>
      simp only [unblock, hblocked, hrestored]
      exact h
    | some restored =>
      rw [unblock_eq now context hblocked hrestored]
      have hforgot := consistent_forgetBlock h now (isBlockable_of_blockedFrom hrestored)
      cases (notBlank context).or item.unblockContext with
      | none => exact hforgot
      | some text => exact hforgot.of_resembles (resembles_setEntry now _ _ (by decide))
  · simp only [unblock, if_pos hblocked]
    exact h

/-! ## Updates -/

theorem consistent_transition (h : item.IsConsistent) (now : Stamp) (dst : Status) :
    (item.transition now dst).2.IsConsistent := by
  simp only [transition]
  split
  · exact h
  · split
    · exact h
    · next hallowed =>
      split
      · exact consistent_setBlocked h now none none
      · next hdst =>
        have hopen : item.status ≠ .blocked := by
          intro hblocked
          rw [hblocked] at hallowed
          exact hallowed rfl
        exact consistent_setStatus now hdst (h.free hopen) h.described

theorem consistent_applyUpdate (h : item.IsConsistent) (now : Stamp) (u : Update) :
    (item.applyUpdate now u).2.IsConsistent := by
  cases u with
  | transition dst =>
    simp only [applyUpdate]
    split
    · exact h
    · exact consistent_transition h now dst
  | setBlocked reason blockedType => exact consistent_setBlocked h now (some reason) blockedType
  | setDescription description => exact consistent_setStructured h now description
  | setPhase phase => exact h.of_resembles (resembles_setText now phase item (by decide))
  | setPhasePool pool => exact h.of_resembles (resembles_setText now _ item (by decide))
  | setPipelineType name => exact h.of_resembles (resembles_setText now name item (by decide))
  | setUnblockContext context =>
    simp only [applyUpdate]
    split
    · exact h
    · exact h.of_resembles (resembles_setText now context item (by decide))
  | assess impact size risk review =>
    have hlevels : Resembles item (((item.recordMember now .impact impact).recordMember now .size
        size).recordMember now .risk risk) :=
      ((resembles_recordMember now impact item (by decide)).trans
        (resembles_recordMember now size _ (by decide))).trans
        (resembles_recordMember now risk _ (by decide))
    cases review with
    | none => exact h.of_resembles hlevels
    | some b =>
      exact h.of_resembles (hlevels.trans (resembles_setEntry now (.bool b) _ (by decide)))
  | setTriageRequested requested =>
    cases requested with
    | false => exact h.of_resembles (resembles_removeEntry now item (by decide))
    | true => exact h.of_resembles (resembles_setEntry now (.bool true) item (by decide))
  | setMergeInto target =>
    simp only [applyUpdate]
    split
    · exact h
    · exact h.of_resembles (resembles_setText now target item (by decide))
  | addTag tag =>
    simp only [applyUpdate]
    split
    · exact h
    · exact h.of_resembles ⟨rfl, fun _ _ => rfl⟩
  | setTitle title =>
    simp only [applyUpdate]
    split
    · exact h
    · exact h.of_resembles ⟨rfl, fun _ _ => rfl⟩
  | setDependencies | removeTag | setPriority => exact h.of_resembles ⟨rfl, fun _ _ => rfl⟩

/-! ## Phases -/

theorem consistent_proceed (h : item.IsConsistent) (now : Stamp) (hopen : item.status ≠ .blocked)
    (pool : Pool) (next : Option Phase) :
    (item.proceed now pool.status pool next).2.IsConsistent := by
  have hmoved : ∀ status phase place, status ≠ .blocked →
      (((item.setStatus now status).setPhase now phase).setPhasePool now place).IsConsistent := by
    intro status phase place hstatus
    exact (consistent_setStatus now hstatus (h.free hopen) h.described).of_resembles
      ((resembles_setText now phase _ (by decide)).trans (resembles_setText now _ _ (by decide)))
  cases next with
  | some phase =>
    simp only [proceed, enter]
    exact hmoved pool.status (some phase.name) (some pool) (by cases pool <;> rintro ⟨⟩)
  | none =>
    cases pool with
    | pre =>
      simp only [proceed, leave]
      exact hmoved .ready none none (by rintro ⟨⟩)
    | main =>
      simp only [proceed, leave]
      exact hmoved .done none none (by rintro ⟨⟩)

theorem consistent_promote (h : item.IsConsistent) (now : Stamp) (set : Pipelines) :
    (item.promote now set).2.IsConsistent := by
  cases hpipeline : item.pipeline set with
  | error e =>
    simp only [promote, hpipeline]
    exact h
  | ok pipeline =>
    cases hpool : Pool.entered? item.status with
    | none =>
      rw [promote_of_not_entered? now hpipeline hpool]
      exact h
    | some pool =>
      rw [promote_of_entered? now hpipeline hpool]
      refine consistent_proceed h now (fun hblocked => ?_) pool _
      rw [hblocked] at hpool
      cases hpool

theorem consistent_advance (h : item.IsConsistent) (now : Stamp) (phase : String) (set : Pipelines) :
    (item.advance now phase set).2.IsConsistent := by
  cases hpool : item.runningPool phase with
  | error e =>
    simp only [advance, hpool]
    exact h
  | ok pool =>
    cases hpipeline : item.pipeline set with
    | error e =>
      simp only [advance, hpool, hpipeline]
      exact h
    | ok pipeline =>
      cases hindex : pipeline.index? pool phase with
      | none =>
        simp only [advance, hpool, hpipeline, hindex]
        exact h
      | some place =>
        rw [advance_of_runningPool now hpipeline hpool (by rw [hindex]; rfl)]
        have hsame : Resembles item (item.setUnblockContext now none) :=
          resembles_setText now none item (by decide)
        refine consistent_proceed (h.of_resembles hsame) now (fun hblocked => ?_) pool _
        -- nothing runs in an item that is blocked
        obtain ⟨usual, husual, -⟩ := runningPool_eq_ok_iff.mp hpool
        rw [← hsame.status, hblocked] at husual
        cases husual

theorem consistent_blockInPhase (h : item.IsConsistent) (now : Stamp) (phase reason : String)
    (blockedType : Option BlockType) :
    (item.blockInPhase now phase reason blockedType).2.IsConsistent := by
  simp only [blockInPhase]
  split
  · exact h
  · exact consistent_setBlocked h now (some reason) blockedType

theorem consistent_recordOutcome (h : item.IsConsistent) (now : Stamp) (phase : String)
    (outcome : RunOutcome) (set : Pipelines) :
    (item.recordOutcome now phase outcome set).2.IsConsistent := by
  cases outcome with
  | complete =>
    have hadvanced := consistent_advance h now phase set
    simp only [recordOutcome]
    split <;> next hstep => rwa [hstep] at hadvanced
  | blocked reason blockedType =>
    have hblocked := consistent_blockInPhase h now phase reason (some blockedType)
    simp only [recordOutcome]
    split <;> next hstep => rwa [hstep] at hblocked
  | failed reason =>
    have hblocked := consistent_blockInPhase h now phase s!"phase {phase} failed: {reason}" none
    simp only [recordOutcome]
    split <;> next hstep => rwa [hstep] at hblocked

theorem consistent_startPhase (h : item.IsConsistent) (now : Stamp) (revision : Option String) :
    (item.startPhase now revision).2.IsConsistent := by
  have hwritten := h.of_resembles (resembles_setText now revision item
    (show Key.lastPhaseCommit ∉ factKeys by decide))
  simp only [startPhase]
  split
  · exact h
  · split
    · exact hwritten
    · exact hwritten
    · exact h

/-! ## Merges -/

theorem consistent_absorb (h : item.IsConsistent) (now : Stamp) (source : Item) :
    (absorb now source item).IsConsistent := by
  have hunited : ∀ dependencies tags priority,
      IsConsistent { item with dependencies, tags, priority } := fun _ _ _ =>
    h.of_resembles ⟨rfl, fun _ _ => rfl⟩
  simp only [absorb]
  split
  · exact (hunited _ _ _).of_resembles (resembles_touch now _)
  · exact (consistent_setStructured (hunited _ _ _) now _).of_resembles (resembles_touch now _)

theorem consistent_redirect (h : item.IsConsistent) (now : Stamp) (source target : String) :
    (item.redirect now source target).IsConsistent := by
  unfold redirect
  split
  · exact h.of_resembles ⟨rfl, fun _ _ => rfl⟩
  · exact h

/-! ## New items -/

/-- The first status of an item that has no entries. -/
theorem consistent_setStatus_new (now : Stamp) (hentries : item.extensions = .empty)
    (hfrom : item.nativeBlockedFrom = none) (hreason : item.blockedReason = none) :
    (item.setStatus now .new).IsConsistent := by
  have hnone : ∀ key, item.extension? key = none := by
    intro key
    rw [extension?, hentries, Dict.get?_empty]
  refine consistent_setStatus now (by rintro ⟨⟩) ⟨hnone _, hfrom, hnone _, hreason⟩ ?_
  intro description hdescription
  rw [structured, inspectStructured, hnone] at hdescription
  cases hdescription

theorem consistent_draft (draft : Draft) (id : String) (now : Stamp) :
    (draft.item id now).IsConsistent := by
  have htexts : ∀ (item : Item) (impact size risk : Option String), Resembles item
      (((((item.setPipelineType now draft.pipelineType).setText now .origin draft.origin).setText now
        .impact impact).setText now .size size).setText now .risk risk) := by
    intro item impact size risk
    have hplanned := (resembles_setText now draft.pipelineType item
      (show Key.pipelineType ∉ factKeys by decide)).trans
      (resembles_setText now draft.origin _ (show Key.origin ∉ factKeys by decide))
    exact ((hplanned.trans (resembles_setText now impact _ (by decide))).trans
      (resembles_setText now size _ (by decide))).trans (resembles_setText now risk _ (by decide))
  have hnew : IsConsistent (setStatus now .new { Item.bare id draft.title now with
      priority := draft.priority
      tags := draft.tags
      dependencies := draft.dependencies.filter (· ≠ id) }) :=
    consistent_setStatus_new now rfl rfl rfl
  simp only [Draft.item, setMember]
  cases draft.description with
  | none => exact hnew.of_resembles (htexts ..)
  | some description =>
    exact (consistent_setStructured hnew now description).of_resembles (htexts ..)

end Item

/-! ## Whatever is done -/

/-- What may be done to an item, and when.  In contrast to a `Moment`, a deed may be refused. -/
inductive Deed where
  | update (now : Stamp) (update : Update)
  | promote (now : Stamp) (set : Pipelines)
  | advance (now : Stamp) (phase : String) (set : Pipelines)
  | record (now : Stamp) (phase : String) (outcome : RunOutcome) (set : Pipelines)
  | start (now : Stamp) (revision : Option String)
  | unblock (now : Stamp) (context : Option String)
  /-- Take in another item. -/
  | absorb (now : Stamp) (source : Item)
  /-- Depend on an item instead of one that was merged into it. -/
  | redirect (now : Stamp) (source target : String)

namespace Deed

/-- The item after the deed, whether it was accepted or refused. -/
def on (item : Item) : Deed → Item
  | .update now u => (item.applyUpdate now u).2
  | .promote now set => (item.promote now set).2
  | .advance now phase set => (item.advance now phase set).2
  | .record now phase outcome set => (item.recordOutcome now phase outcome set).2
  | .start now revision => (item.startPhase now revision).2
  | .unblock now context => (item.unblock now context).2
  | .absorb now source => Item.absorb now source item
  | .redirect now source target => item.redirect now source target

variable {item : Item}

theorem identity_on (deed : Deed) (item : Item) : (deed.on item).identity = item.identity := by
  cases deed with
  | update now u => exact Item.identity_applyUpdate now u item
  | promote now set => exact Item.identity_promote now set item
  | advance now phase set => exact (Item.written_advance phase set).identity
  | record now phase outcome set => exact Item.identity_recordOutcome now phase outcome set item
  | start now revision => exact Item.identity_startPhase now revision item
  | unblock now context => exact Item.identity_unblock now context item
  | absorb now source => exact Item.identity_absorb now source item
  | redirect now source target => exact Item.identity_redirect now source target item

theorem consistent_on (h : item.IsConsistent) (deed : Deed) : (deed.on item).IsConsistent := by
  cases deed with
  | update now u => exact Item.consistent_applyUpdate h now u
  | promote now set => exact Item.consistent_promote h now set
  | advance now phase set => exact Item.consistent_advance h now phase set
  | record now phase outcome set => exact Item.consistent_recordOutcome h now phase outcome set
  | start now revision => exact Item.consistent_startPhase h now revision
  | unblock now context => exact Item.consistent_unblock h now context
  | absorb now source => exact Item.consistent_absorb h now source
  | redirect now source target => exact Item.consistent_redirect h now source target

end Deed

namespace Item

variable {item : Item}

/-- The item after all deeds in turn. -/
def after (item : Item) (deeds : List Deed) : Item := deeds.foldl Deed.on item

/-- What each of these deeds keeps is so after all of them. -/
theorem after_keeps_of_mem {I : Item → Prop} {deeds : List Deed}
    (hdeed : ∀ item, ∀ deed ∈ deeds, I item → I (Deed.on item deed)) (h : I item) :
    I (item.after deeds) := by
  induction deeds generalizing item with
  | nil => exact h
  | cons deed rest ih =>
    exact ih (fun i d hd => hdeed i d (List.mem_cons_of_mem deed hd))
      (hdeed item deed List.mem_cons_self h)

/-- What every deed keeps is so after all of them. -/
theorem after_keeps {I : Item → Prop} (hdeed : ∀ item deed, I item → I (Deed.on item deed))
    (h : I item) (deeds : List Deed) : I (item.after deeds) :=
  after_keeps_of_mem (fun i deed _ => hdeed i deed) h

theorem consistent_after (draft : Draft) (id : String) (created : Stamp) (deeds : List Deed) :
    ((draft.item id created).after deeds).IsConsistent :=
  after_keeps (I := IsConsistent) (fun _ deed h => Deed.consistent_on h deed)
    (consistent_draft draft id created) deeds

/-- What is kept twice is told twice the same. -/
structure TellsTheSame (item : Item) : Prop where
  native : item.native = item.status.native
  substate_iff : (item.extension? .status).isSome = true ↔ item.native = .todo
  substate : ∀ value, item.extension? .status = some value → value = .text (Text.word item.status)
  blocked_iff_entry : item.status = .blocked ↔ (item.extension? .blockedFrom).isSome = true
  blocked_iff_native : item.status = .blocked ↔ item.nativeBlockedFrom.isSome = true
  restored : ∀ value, item.extension? .blockedFrom = some value →
    ∃ restored : Status, value = .text (Text.word restored) ∧ item.blockedFrom = some restored ∧
      restored.isBlockable = true ∧ item.nativeBlockedFrom = some restored.native
  reason : item.blockedReason.isSome = true → item.status = .blocked
  type : (item.extension? .blockedType).isSome = true → item.status = .blocked
  described : ∀ description, item.structured = some description →
    item.description = if Text.isBlank description.context then none else some description.context

theorem IsConsistent.tellsTheSame (h : item.IsConsistent) : item.TellsTheSame := by
  have hnative : (item.extension? .status).isSome = true ↔ item.native = .todo := by
    rw [h.substate, ← native_status item]
    cases item.status <;> decide
  have hsubstate : ∀ value, item.extension? .status = some value →
      value = .text (Text.word item.status) := by
    intro value hvalue
    rw [h.substate] at hvalue
    cases hstatus : item.status <;> rw [hstatus] at hvalue <;> cases hvalue <;> rfl
  by_cases hblocked : item.status = .blocked
  · obtain ⟨restored, hrecords⟩ := h.blocked hblocked
    have hread : item.blockedFrom = some restored :=
      blockedFrom_of_written (by rw [hrecords.native]; rfl) hrecords.entry hrecords.blockable
    refine ⟨(native_status item).symm, hnative, hsubstate, ?_, ?_, ?_, fun _ => hblocked,
      fun _ => hblocked, h.described⟩
    · simp [hblocked, hrecords.entry]
    · simp [hblocked, hrecords.native]
    · intro value hvalue
      rw [hrecords.entry] at hvalue
      cases hvalue
      exact ⟨restored, rfl, hread, hrecords.blockable, hrecords.native⟩
  · have hfree := h.free hblocked
    refine ⟨(native_status item).symm, hnative, hsubstate, ?_, ?_, ?_, ?_, ?_, h.described⟩
    · simp [hblocked, hfree.entry]
    · simp [hblocked, hfree.native]
    · simp [hfree.entry]
    · simp [hfree.reason]
    · simp [hfree.type]

end Item

end Backlog
