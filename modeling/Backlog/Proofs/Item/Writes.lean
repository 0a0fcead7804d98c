/-
  What changes of an item are made of.

  Program: there are a few writes of the status, the entries and the description of an item.  Every
  change is some of these writes one after the other, but for updates that set a field of their own.

  Specification: which ones is said once (`Written`, `FieldSet`), with a lemma for each change that
  also tells the entries it is about.  What all of the writes keep every change keeps: none of them
  touches the particulars of the item (`Written.particulars`) or another entry (`Written.extension?`).
-/
import Backlog.Item.Update
import Backlog.Outcome
import Mathlib.Logic.Basic

namespace Backlog

open Text (Vocabulary)

/-! ## What updates are about -/

/-- The entries that an update is about. -/
def Update.keys : Update → List Key
  | .transition status =>
    if status = .blocked then [.status, .blockedFrom, .blockedType, .unblockContext] else [.status]
  | .setPhase _ => [.phase]
  | .setPhasePool _ => [.phasePool]
  | .setPipelineType _ => [.pipelineType]
  | .setBlocked .. => [.status, .blockedFrom, .blockedType, .unblockContext]
  | .setUnblockContext _ => [.unblockContext]
  | .assess .. => [.impact, .size, .risk, .requiresHumanReview]
  | .setDescription _ => [.description]
  | .setTriageRequested _ => [.triageRequested]
  | .setMergeInto _ => [.mergeInto]
  | .setDependencies _ | .addTag _ | .removeTag _ | .setTitle _ | .setPriority _ => []

/-- The particulars of the new item that a draft describes, and nothing else. -/
def Draft.plain (draft : Draft) (id : String) (now : Stamp) : Item :=
  { Item.bare id draft.title now with
    priority := draft.priority
    tags := draft.tags
    dependencies := draft.dependencies.filter (· ≠ id) }

/-- The entries that a new item may have. -/
def Draft.keys : List Key := [.status, .description, .pipelineType, .origin, .impact, .size, .risk]

namespace Item

/-! ## Writes -/

/-- What may come of an item by writes of its status, of these entries and of its description. -/
inductive Written (now : Stamp) (keys : List Key) (item : Item) : Item → Prop where
  | same : Written now keys item item
  | setNative {after : Item} (status : NativeStatus) :
      Written now keys item after → Written now keys item (after.setNative now status)
  | blockNative {after : Item} (reason : Option String) :
      Written now keys item after → Written now keys item (after.blockNative now reason)
  | unblockNative {after : Item} :
      Written now keys item after → Written now keys item (after.unblockNative now)
  | setEntry {after : Item} {key : Key} (hkey : key ∈ keys) (value : Json) :
      Written now keys item after → Written now keys item (after.setEntry now key value)
  | removeEntry {after : Item} {key : Key} (hkey : key ∈ keys) :
      Written now keys item after → Written now keys item (after.removeEntry now key)
  | setStructured {after : Item} (hkey : .description ∈ keys) (description : Description) :
      Written now keys item after → Written now keys item (after.setStructured now description)

/-- What may come of an item when a field that nothing else is kept in is set. -/
inductive FieldSet (now : Stamp) (item : Item) : Item → Prop where
  | same : FieldSet now item item
  | title (title : String) : FieldSet now item (touch now { item with title })
  | priority (priority : Int) : FieldSet now item (touch now { item with priority })
  | tags (tags : List String) : FieldSet now item (touch now { item with tags })
  | dependencies (dependencies : List String) :
      FieldSet now item (touch now { item with dependencies := dependencies.filter (· ≠ item.id) })

/-- What an item is apart from its status, its entries and what is said of them. -/
structure Particulars where
  id : String
  title : String
  priority : Int
  tags : List String
  dependencies : List String
  createdAt : Stamp

/-- The particulars of an item. -/
def particulars (item : Item) : Particulars where
  id := item.id
  title := item.title
  priority := item.priority
  tags := item.tags
  dependencies := item.dependencies
  createdAt := item.createdAt

variable {now : Stamp} {keys others : List Key} {key : Key} {item between after : Item}

namespace Written

theorem trans (h : Written now keys item between) (h' : Written now keys between after) :
    Written now keys item after := by
  induction h' with
  | same => exact h
  | setNative status _ ih => exact ih.setNative status
  | blockNative reason _ ih => exact ih.blockNative reason
  | unblockNative _ ih => exact ih.unblockNative
  | setEntry hkey value _ ih => exact ih.setEntry hkey value
  | removeEntry hkey _ ih => exact ih.removeEntry hkey
  | setStructured hkey description _ ih => exact ih.setStructured hkey description

theorem mono (h : Written now keys item after) (hkeys : keys ⊆ others) :
    Written now others item after := by
  induction h with
  | same => exact .same
  | setNative status _ ih => exact ih.setNative status
  | blockNative reason _ ih => exact ih.blockNative reason
  | unblockNative _ ih => exact ih.unblockNative
  | setEntry hkey value _ ih => exact ih.setEntry (hkeys hkey) value
  | removeEntry hkey _ ih => exact ih.removeEntry (hkeys hkey)
  | setStructured hkey description _ ih => exact ih.setStructured (hkeys hkey) description

/-! ## What the writes keep -/

/-- The particulars are as before. -/
theorem particulars (h : Written now keys item after) : after.particulars = item.particulars := by
  induction h with
  | same => rfl
  | @blockNative after reason _ ih =>
    have hkept : (after.blockNative now reason).particulars = after.particulars := by
      unfold Item.blockNative
      split <;> rfl
    exact hkept.trans ih
  | @unblockNative after _ ih =>
    have hkept : (after.unblockNative now).particulars = after.particulars := by
      unfold Item.unblockNative
      split <;> rfl
    exact hkept.trans ih
  | @removeEntry after key _ _ ih =>
    have hkept : (after.removeEntry now key).particulars = after.particulars := by
      unfold Item.removeEntry
      split <;> rfl
    exact hkept.trans ih
  | setNative _ _ ih | setEntry _ _ _ ih | setStructured _ _ _ ih => exact ih

theorem id_eq (h : Written now keys item after) : after.id = item.id :=
  congrArg Particulars.id h.particulars

theorem dependencies_eq (h : Written now keys item after) : after.dependencies = item.dependencies :=
  congrArg Particulars.dependencies h.particulars

/-- The entries under other names are as before, whoever they belong to. -/
theorem get? (h : Written now keys item after) {name : String} (hname : ∀ key ∈ keys, name ≠ key.name) :
    after.extensions.get? name = item.extensions.get? name := by
  induction h with
  | same => rfl
  | setNative _ _ ih => exact ih
  | @blockNative after reason _ ih =>
    have hkept : (after.blockNative now reason).extensions = after.extensions := by
      unfold Item.blockNative
      split <;> rfl
    rw [hkept, ih]
  | @unblockNative after _ ih =>
    have hkept : (after.unblockNative now).extensions = after.extensions := by
      unfold Item.unblockNative
      split <;> rfl
    rw [hkept, ih]
  | setEntry hkey value _ ih => exact (Dict.get?_insert ..).trans ((if_neg (hname _ hkey)).trans ih)
  | @removeEntry after key hkey _ ih =>
    unfold Item.removeEntry
    split
    · exact (Dict.get?_erase ..).trans ((if_neg (hname _ hkey)).trans ih)
    · exact ih
  | setStructured hkey description _ ih =>
    exact (Dict.get?_insert ..).trans ((if_neg (hname _ hkey)).trans ih)

/-- The entries that the writes are not about are as before. -/
theorem extension? (h : Written now keys item after) (hkey : key ∉ keys) :
    after.extension? key = item.extension? key :=
  h.get? fun _ hother heq => hkey (Key.name_inj.mp heq ▸ hother)

end Written

theorem FieldSet.extension? (h : FieldSet now item after) (key : Key) :
    after.extension? key = item.extension? key := by
  cases h <;> rfl

/-! ## Entries and the status -/

namespace Written

theorem setText (h : Written now keys item after) (hkey : key ∈ keys) (value : Option String) :
    Written now keys item (after.setText now key value) := by
  unfold Item.setText
  split
  · exact h.setEntry hkey _
  · exact h.removeEntry hkey

theorem setMember {α : Type} [Vocabulary α] (h : Written now keys item after) (hkey : key ∈ keys)
    (value : Option α) : Written now keys item (after.setMember now key value) :=
  h.setText hkey _

theorem recordMember {α : Type} [Vocabulary α] (h : Written now keys item after) (hkey : key ∈ keys)
    (value : Option α) : Written now keys item (after.recordMember now key value) := by
  cases value with
  | none => exact h
  | some a => exact h.setEntry hkey _

theorem setStatus (h : Written now keys item after) (hkey : .status ∈ keys) (status : Status) :
    Written now keys item (after.setStatus now status) := by
  unfold Item.setStatus
  split
  · exact (h.setNative .todo).setEntry hkey _
  · exact (h.setNative status.native).removeEntry hkey

end Written

/-! ## Changes of the status -/

theorem written_setBlocked (reason : Option String) (blockedType : Option BlockType) :
    Written now [.status, .blockedFrom, .blockedType, .unblockContext] item
      (setBlocked now reason blockedType item).2 := by
  simp only [setBlocked]
  split
  · exact .same
  · have hrecorded : Written now [.status, .blockedFrom, .blockedType, .unblockContext] item
        (if item.status = .blocked then item
          else (item.setEntry now .blockedFrom (.text (Text.word item.status))).removeEntry now
            .status) := by
      split
      · exact .same
      · exact (Written.same.setEntry (by decide) _).removeEntry (by decide)
    exact ((hrecorded.blockNative reason).setMember (by decide) blockedType).removeEntry (by decide)

theorem written_transition (dst : Status) :
    Written now (Update.transition dst).keys item (transition now dst item).2 := by
  simp only [transition]
  split
  · exact .same
  · split
    · exact .same
    · split
      · next hdst =>
        rw [Update.keys, if_pos hdst]
        exact written_setBlocked none none
      · next hdst =>
        rw [Update.keys, if_neg hdst]
        exact Written.same.setStatus (by decide) dst

theorem written_unblock (context : Option String) :
    Written now [.status, .blockedFrom, .blockedType, .unblockContext] item
      (unblock now context item).2 := by
  simp only [unblock]
  split
  · exact .same
  · split
    · exact .same
    · next restored _ =>
      have hforgotten : Written now [.status, .blockedFrom, .blockedType, .unblockContext] item _ :=
        ((((Written.same.setStatus (by decide) restored).removeEntry
          (by decide : Key.blockedFrom ∈ _)).removeEntry (by decide : Key.blockedType ∈ _)).removeEntry
          (by decide : Key.unblockContext ∈ _)).unblockNative
      split
      · exact hforgotten.setEntry (by decide) _
      · exact hforgotten

/-! ## Updates -/

theorem written_assess (impact : Option Level) (size : Option Size) (risk : Option Level)
    (review : Option Bool) :
    Written now [.impact, .size, .risk, .requiresHumanReview] item
      (applyUpdate now (.assess impact size risk review) item).2 := by
  have hlevels : Written now [.impact, .size, .risk, .requiresHumanReview] item _ :=
    ((Written.same.recordMember (by decide : Key.impact ∈ _) impact).recordMember
      (by decide : Key.size ∈ _) size).recordMember (by decide : Key.risk ∈ _) risk
  cases review with
  | none => exact hlevels
  | some b => exact hlevels.setEntry (by decide) (.bool b)

theorem written_setTriageRequested (requested : Bool) :
    Written now [.triageRequested] item (item.setTriageRequested now requested) := by
  cases requested with
  | false => exact Written.same.removeEntry List.mem_cons_self
  | true => exact Written.same.setEntry List.mem_cons_self (.bool true)

/-- An update writes the entries that it is about, or sets a field. -/
theorem written_or_set (now : Stamp) (u : Update) (item : Item) :
    Written now u.keys item (applyUpdate now u item).2 ∨
      FieldSet now item (applyUpdate now u item).2 := by
  cases u with
  | transition status =>
    left
    simp only [applyUpdate]
    split
    · exact .same
    · exact written_transition status
  | setPhase phase => exact .inl (Written.same.setText List.mem_cons_self phase)
  | setPhasePool pool => exact .inl (Written.same.setMember List.mem_cons_self pool)
  | setPipelineType name => exact .inl (Written.same.setText List.mem_cons_self name)
  | setBlocked reason blockedType => exact .inl (written_setBlocked (some reason) blockedType)
  | setUnblockContext context =>
    left
    simp only [applyUpdate]
    split
    · exact .same
    · exact Written.same.setText List.mem_cons_self context
  | assess impact size risk review => exact .inl (written_assess impact size risk review)
  | setDescription description => exact .inl (Written.same.setStructured List.mem_cons_self description)
  | setTriageRequested requested => exact .inl (written_setTriageRequested requested)
  | setMergeInto target =>
    left
    simp only [applyUpdate]
    split
    · exact .same
    · exact Written.same.setText List.mem_cons_self target
  | setDependencies dependencies => exact .inr (.dependencies dependencies)
  | addTag tag =>
    right
    simp only [applyUpdate]
    split
    · exact .same
    · exact .tags _
  | removeTag tag => exact .inr (.tags _)
  | setTitle title =>
    right
    simp only [applyUpdate]
    split
    · exact .same
    · exact .title title
  | setPriority priority => exact .inr (.priority priority)

/-! ## Progress -/

theorem written_proceed (status : Status) (pool : Pool) (phase : Option Phase) :
    Written now [.status, .phase, .phasePool] item (item.proceed now status pool phase).2 := by
  have hplaced : ∀ (status : Status) (phase : Option String) (pool : Option Pool),
      Written now [.status, .phase, .phasePool] item
        (((item.setStatus now status).setPhase now phase).setPhasePool now pool) :=
    fun status phase pool => ((Written.same.setStatus (by decide) status).setText (by decide)
      phase).setMember (by decide) pool
  cases phase with
  | some phase =>
    simp only [proceed, enter]
    exact hplaced status (some phase.name) (some pool)
  | none =>
    cases pool with
    | pre =>
      simp only [proceed, leave]
      exact hplaced .ready none none
    | main =>
      simp only [proceed, leave]
      exact hplaced .done none none

theorem written_promote (set : Pipelines) :
    Written now [.status, .phase, .phasePool] item (promote now set item).2 := by
  simp only [promote]
  split
  · exact .same
  · split
    · exact written_proceed _ _ _
    · exact written_proceed _ _ _
    · exact .same

theorem written_advance (phase : String) (set : Pipelines) :
    Written now [.status, .phase, .phasePool, .unblockContext] item (item.advance now phase set).2 := by
  simp only [advance]
  split
  · exact .same
  · split
    · exact .same
    · split
      · exact .same
      · exact (Written.same.setText (by decide) none).trans ((written_proceed _ _ _).mono (by decide))

theorem written_blockInPhase (phase reason : String) (blockedType : Option BlockType) :
    Written now [.status, .blockedFrom, .blockedType, .unblockContext] item
      (item.blockInPhase now phase reason blockedType).2 := by
  simp only [blockInPhase]
  split
  · exact .same
  · exact written_setBlocked (some reason) blockedType

theorem written_recordOutcome (phase : String) (outcome : RunOutcome) (set : Pipelines) :
    Written now [.status, .blockedFrom, .blockedType, .unblockContext, .phase, .phasePool] item
      (item.recordOutcome now phase outcome set).2 := by
  have hblocks : ∀ (reason : String) (blockedType : Option BlockType),
      Written now [.status, .blockedFrom, .blockedType, .unblockContext, .phase, .phasePool] item
        (item.blockInPhase now phase reason blockedType).2 :=
    fun reason blockedType => (written_blockInPhase phase reason blockedType).mono (by decide)
  cases outcome with
  | complete =>
    have h : Written now [.status, .blockedFrom, .blockedType, .unblockContext, .phase, .phasePool] item
        (item.advance now phase set).2 := (written_advance phase set).mono (by decide)
    simp only [recordOutcome]
    split <;> (next hstep => rwa [hstep] at h)
  | blocked reason blockedType =>
    have h := hblocks reason (some blockedType)
    simp only [recordOutcome]
    split <;> (next hstep => rwa [hstep] at h)
  | failed reason =>
    have h := hblocks s!"phase {phase} failed: {reason}" none
    simp only [recordOutcome]
    split <;> (next hstep => rwa [hstep] at h)

theorem written_startPhase (revision : Option String) :
    Written now [.lastPhaseCommit] item (item.startPhase now revision).2 := by
  simp only [startPhase]
  split
  · exact .same
  · split
    · exact Written.same.setText List.mem_cons_self revision
    · exact Written.same.setText List.mem_cons_self revision
    · exact .same

/-! ## New items -/

theorem written_draft (draft : Draft) (id : String) :
    Written now Draft.keys (draft.plain id now) (draft.item id now) := by
  have hnew : Written now Draft.keys (draft.plain id now) ((draft.plain id now).setStatus now .new) :=
    Written.same.setStatus (by decide) .new
  have htexts : ∀ {item : Item}, Written now Draft.keys (draft.plain id now) item →
      Written now Draft.keys (draft.plain id now)
        (((((item.setPipelineType now draft.pipelineType).setText now .origin draft.origin).setMember now
          .impact draft.impact).setMember now .size draft.size).setMember now .risk draft.risk) :=
    fun h => ((((h.setText (by decide) draft.pipelineType).setText (by decide) draft.origin).setMember
      (by decide) draft.impact).setMember (by decide) draft.size).setMember (by decide) draft.risk
  simp only [Draft.item]
  cases draft.description with
  | none => exact htexts hnew
  | some description => exact htexts (hnew.setStructured (by decide) description)

end Item

end Backlog
