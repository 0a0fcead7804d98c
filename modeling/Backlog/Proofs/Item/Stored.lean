/-
  Items written and read back.

  Program: an item is written as an object of its fields, those without a value left out; a reader looks
  each field up by its name and fills in what is not there.

  Specification: the item that is read is the one that was written, field for field (`read?_toRaw`), as
  long as its values are ones that can be stored (`Item.Storable`).

  The crux is that no field is written twice, so that looking one up finds it or finds it left out
  (`field?_fieldsToRaw`), and that what a reader fills in is exactly what was left out.
-/
import Backlog.Item.Stored
import Backlog.Proofs.Json.Sorted
import Backlog.Proofs.Json.Written
import Backlog.Proofs.Time.Stamps

namespace Backlog

/-! ## Records -/

namespace Json

theorem fieldsToRaw_eq (fs : List (String × Json)) :
    fieldsToRaw fs = fs.map fun f => (some f.1, f.2.toRaw) := by
  induction fs with
  | nil => rfl
  | cons f fs ih => rw [fieldsToRaw, ih]; rfl

theorem itemsToRaw_eq (vs : List Json) : itemsToRaw vs = vs.map toRaw := by
  induction vs with
  | nil => rfl
  | cons v vs ih => rw [itemsToRaw, ih]; rfl

namespace Raw

theorem field?_fieldsToRaw {fs : List (String × Json)} (hkeys : (fs.map Prod.fst).Nodup)
    (name : String) : field? (fieldsToRaw fs) name = some ((lookupEntry name fs).map toRaw) := by
  have hfilter : (fieldsToRaw fs).filter (fun f => f.1 == some name)
      = ((lookupEntry name fs).map fun v => (some name, v.toRaw)).toList := by
    induction fs with
    | nil => rfl
    | cons f fs ih =>
      obtain ⟨k, v⟩ := f
      obtain ⟨hnew, hrest⟩ := List.nodup_cons.mp hkeys
      rw [fieldsToRaw, lookupEntry]
      by_cases hk : name = k
      · subst hk
        have hnone : lookupEntry name fs = none :=
          Dict.lookupEntry_eq_none fun e he heq => hnew (List.mem_map.mpr ⟨e, he, heq⟩)
        rw [List.filter_cons_of_pos (by simp), ih hrest, hnone, if_pos rfl]
        rfl
      · rw [List.filter_cons_of_neg (by simpa using Ne.symm hk), ih hrest, if_neg hk]
  rw [field?, hfilter]
  cases lookupEntry name fs <;> rfl

/-- Looking up the fields of a record finds what was written under their names. -/
theorem record?_toRaw {fs : List (String × Json)} (hkeys : (fs.map Prod.fst).Nodup)
    (names : List String) : (Json.object fs).toRaw.record? names
      = some (names.map fun name => (lookupEntry name fs).map toRaw) := by
  have hnamed : ((fieldsToRaw fs).all fun f => f.1.isSome) = true := by
    rw [fieldsToRaw_eq, List.all_map]
    exact List.all_eq_true.mpr fun _ _ => rfl
  have hfields : ∀ names : List String, names.mapM (field? (fieldsToRaw fs))
      = some (names.map fun name => (lookupEntry name fs).map toRaw) := by
    intro names
    induction names with
    | nil => rfl
    | cons name names ih =>
      rw [List.mapM_cons, field?_fieldsToRaw hkeys, ih]
      rfl
  rw [toRaw, record?, guard_of hnamed]
  exact hfields names

theorem list?_toRaw {α : Type} {read : Raw → Option α} {write : α → Json} {as : List α}
    (h : ∀ a ∈ as, read (write a).toRaw = some a) :
    list? read (Json.array (as.map write)).toRaw = some as := by
  rw [toRaw, list?, itemsToRaw_eq, List.map_map]
  induction as with
  | nil => rfl
  | cons a as ih =>
    rw [List.map_cons, List.mapM_cons, ih fun b hb => h b (List.mem_cons_of_mem a hb)]
    show (read (write a).toRaw >>= _) = _
    rw [h a List.mem_cons_self]
    rfl

end Raw

end Json

theorem lookupEntry_append {α : Type} (key : String) (xs ys : List (String × α)) :
    lookupEntry key (xs ++ ys) = (lookupEntry key xs).or (lookupEntry key ys) := by
  induction xs with
  | nil => rfl
  | cons first rest ih =>
    rw [List.cons_append, lookupEntry, lookupEntry]
    split
    · rfl
    · exact ih

namespace Item

/-! ## Items that can be stored -/

/-- What can be stored of an item: moments in years of four digits, and extension entries with whole
    numbers that nest no deeper than a hundred levels.  A priority has 64 bits and the objects in an entry
    are in key order in any case. -/
structure Storable (item : Item) : Prop where
  priority : -Int.pow 2 63 ≤ item.priority ∧ item.priority ≤ Int.pow 2 63 - 1
  shown : item.createdAt.isShown = true ∧ item.updatedAt.isShown = true
  created : 0 ≤ item.createdAt.year ∧ item.createdAt.year ≤ 9999
  updated : 0 ≤ item.updatedAt.year ∧ item.updatedAt.year ≤ 9999
  whole : ∀ e ∈ item.extensions.entries, e.2.isWhole = true
  sorted : ∀ e ∈ item.extensions.entries, e.2.isSorted = true
  nested : ∀ e ∈ item.extensions.entries, e.2.depth ≤ 100

/-! ## Fields -/

theorem lookupEntry_optionalField (key name : String) (value : Option Json) :
    lookupEntry key (optionalField name value) = if key = name then value else none := by
  cases value with
  | none => rw [ite_self]; rfl
  | some v => rfl

/-- The names of the fields in the order in which they are written. -/
def fieldNames : List String :=
  ["id", "title", "status", "priority", "description", "tags", "dependencies", "created_at",
    "updated_at", "blocked_reason", "blocked_from_status", "extensions"]

theorem sublist_keys_optionalField (name : String) (value : Option Json) :
    ((optionalField name value).map Prod.fst).Sublist [name] := by
  cases value with
  | none => exact List.nil_sublist [name]
  | some v => exact List.Sublist.refl [name]

/-- The extension entries as they are written, if there are any. -/
def extensionsJson (item : Item) : Option Json :=
  if item.extensions.isEmpty then none else some (.object item.extensions.entries)

theorem fields_eq (item : Item) : item.fields =
    [("id", .text item.id), ("title", .text item.title), ("status", .text (Text.word item.native)),
      ("priority", .int item.priority)]
    ++ optionalField "description" (item.description.map .text)
    ++ [("tags", .texts item.tags), ("dependencies", .texts item.dependencies),
      ("created_at", .text item.createdAt.render), ("updated_at", .text item.updatedAt.render)]
    ++ optionalField "blocked_reason" (item.blockedReason.map .text)
    ++ optionalField "blocked_from_status" (item.nativeBlockedFrom.map fun s => .text (Text.word s))
    ++ optionalField "extensions" item.extensionsJson := by
  have hextensions : (if item.extensions.isEmpty then []
      else [("extensions", Json.object item.extensions.entries)])
        = optionalField "extensions" item.extensionsJson := by
    unfold extensionsJson
    split <;> rfl
  rw [fields, hextensions]

/-- No field is written twice. -/
theorem nodup_keys_fields (item : Item) : (item.fields.map Prod.fst).Nodup := by
  have hsublist : (item.fields.map Prod.fst).Sublist fieldNames := by
    rw [fields_eq]
    simp only [List.map_append]
    exact (((((List.Sublist.refl _).append (sublist_keys_optionalField ..)).append
      (List.Sublist.refl _)).append (sublist_keys_optionalField ..)).append
        (sublist_keys_optionalField ..)).append (sublist_keys_optionalField ..)
  exact List.Nodup.sublist hsublist (by decide)

/-- Whatever is looked up of a written item is what it has there. -/
theorem lookups_fields {α : Type} (item : Item) (f : Option Json → α) :
    fieldNames.map (fun name => f (lookupEntry name item.fields)) =
    [some (.text item.id), some (.text item.title), some (.text (Text.word item.native)),
      some (.int item.priority), item.description.map .text, some (.texts item.tags),
      some (.texts item.dependencies), some (.text item.createdAt.render),
      some (.text item.updatedAt.render), item.blockedReason.map .text,
      item.nativeBlockedFrom.map fun s => .text (Text.word s), item.extensionsJson].map f := by
  simp [fieldNames, fields_eq, lookupEntry_append, lookupEntry, lookupEntry_optionalField]

/-! ## Single values -/

open Json (toRaw)

theorem text?_toRaw (s : String) : (some (toRaw (.text s))).bind Json.Raw.text? = some s := rfl

theorem readStamp?_toRaw (s : String) :
    (some (toRaw (.text s))).bind readStamp? = Stamp.read? s := rfl

theorem texts_toRaw (ss : List String) :
    Json.Raw.orDefault? [] (Json.Raw.list? Json.Raw.text?) (some (toRaw (.texts ss))) = some ss :=
  Json.Raw.list?_toRaw fun s _ => text?_toRaw s

theorem nullableText_toRaw (s : Option String) :
    Json.Raw.orDefault? none (Json.Raw.nullable? Json.Raw.text?) ((s.map .text).map toRaw)
      = some s := by
  cases s <;> rfl

theorem member?_toRaw (status : NativeStatus) :
    (some (toRaw (.text (Text.word status)))).bind (Json.Raw.member? NativeStatus) = some status :=
  Text.LawfulVocabulary.exactWord?_word status

theorem nullableMember_toRaw (status : Option NativeStatus) :
    Json.Raw.orDefault? none (Json.Raw.nullable? (Json.Raw.member? NativeStatus))
      ((status.map fun s => .text (Text.word s)).map toRaw) = some status := by
  cases status with
  | none => rfl
  | some status => exact congrArg (Option.map some) (member?_toRaw status)

theorem extensions_toRaw {item : Item} {limit : Nat}
    (hsorted : ∀ e ∈ item.extensions.entries, e.2.isSorted = true)
    (hnested : ∀ e ∈ item.extensions.entries, e.2.depth ≤ limit) :
    Json.Raw.orDefault? .empty (readExtensions? limit) (item.extensionsJson.map toRaw)
      = some item.extensions := by
  unfold extensionsJson
  cases hempty : item.extensions.isEmpty with
  | true =>
    have hnone : Dict.empty = item.extensions := Dict.ext (List.isEmpty_iff.mp hempty).symm
    exact congrArg some hnone
  | false =>
    have hfields := Json.Raw.toFields?_toRaw item.extensions.entries limit
      (Json.fieldsAreSorted_iff.mpr hsorted) (Json.depthOfFields_le_iff.mpr hnested)
    show (Json.Raw.toFields? limit (Json.fieldsToRaw item.extensions.entries)).map Dict.ofList = _
    rw [hfields, Option.map_some, ofList_entries]

/-! ## Items -/

variable {item : Item}

/-- The item that is read is the one that was written. -/
theorem read?_toRaw (h : item.Storable) {around : Nat} (haround : around ≤ 25) :
    read? around item.toJson.toRaw = some item := by
  have hrecord := Json.Raw.record?_toRaw item.nodup_keys_fields fieldNames
  rw [lookups_fields] at hrecord
  have hpriority : Json.Raw.orDefault? 0 readPriority? (some (toRaw (.int item.priority)))
      = some item.priority := if_pos h.priority
  have hcreated : (some (toRaw (.text item.createdAt.render))).bind readStamp? = some item.createdAt :=
    (readStamp?_toRaw _).trans (Stamp.read?_render h.shown.1 h.created.1 h.created.2)
  have hupdated : (some (toRaw (.text item.updatedAt.render))).bind readStamp? = some item.updatedAt :=
    (readStamp?_toRaw _).trans (Stamp.read?_render h.shown.2 h.updated.1 h.updated.2)
  have hextensions := @extensions_toRaw item (maxDepth - around - 2) h.sorted
    fun e he => Nat.le_trans (h.nested e he) (by simp only [maxDepth]; omega)
  simp only [List.map_cons, List.map_nil, Option.map_some] at hrecord
  have hgiven : item.toJson.toRaw.record? ["id", "title", "status", "priority", "description", "tags",
      "dependencies", "created_at", "updated_at", "blocked_reason", "blocked_from_status", "extensions"]
        = _ := hrecord
  rw [read?]
  refine bind_of hgiven (bind_of (text?_toRaw item.id) (bind_of (text?_toRaw item.title) ?_))
  refine bind_of (member?_toRaw item.native) (bind_of hpriority ?_)
  refine bind_of (nullableText_toRaw item.description) ?_
  refine bind_of (texts_toRaw item.tags) (bind_of (texts_toRaw item.dependencies) ?_)
  refine bind_of hcreated (bind_of hupdated (bind_of (nullableText_toRaw item.blockedReason) ?_))
  exact bind_of (nullableMember_toRaw item.nativeBlockedFrom) (bind_of hextensions rfl)

theorem isWhole_texts (ss : List String) : (Json.texts ss).isWhole = true := by
  refine Json.itemsAreWhole_iff.mpr fun v hv => ?_
  obtain ⟨s, -, rfl⟩ := List.mem_map.mp hv
  rfl

theorem isWhole_optionalField {name : String} {value : Option Json}
    (h : ∀ v ∈ value, v.isWhole = true) : ∀ f ∈ optionalField name value, f.2.isWhole = true := by
  cases value with
  | none => rintro _ ⟨⟩
  | some v =>
    intro f hf
    rw [List.mem_singleton.mp hf]
    exact h v rfl

/-- Every number that is written of an item is a whole one. -/
theorem isWhole_toJson (h : item.Storable) : item.toJson.isWhole = true := by
  have hpriority : (Json.int item.priority).isWhole = true := by
    obtain ⟨hlow, hhigh⟩ := h.priority
    have hfits : item.priority < Int.pow 2 64 := by
      have hpow : Int.pow 2 63 - 1 < Int.pow 2 64 := by decide
      omega
    exact Bool.and_eq_true_iff.mpr ⟨decide_eq_true hlow, decide_eq_true hfits⟩
  have hextensions : ∀ v ∈ item.extensionsJson, v.isWhole = true := by
    unfold extensionsJson
    split
    · rintro _ ⟨⟩
    · rintro _ ⟨⟩
      exact Json.fieldsAreWhole_iff.mpr h.whole
  have htext : ∀ {α : Type} (text : α → String) (value : Option α),
      ∀ v ∈ value.map fun a => Json.text (text a), v.isWhole = true := by
    intro α text value v hv
    obtain ⟨a, -, rfl⟩ := Option.map_eq_some_iff.mp hv
    rfl
  refine Json.fieldsAreWhole_iff.mpr ?_
  simp only [fields_eq, List.forall_mem_append, List.forall_mem_cons, hpriority, isWhole_texts,
    true_and]
  exact ⟨⟨⟨⟨⟨⟨rfl, rfl, rfl, by simp⟩, isWhole_optionalField (htext _ _)⟩, rfl, rfl, by simp⟩,
    isWhole_optionalField (htext _ _)⟩, isWhole_optionalField (htext _ _)⟩,
    isWhole_optionalField hextensions⟩

/-- The line that is written of an item is read as that item. -/
theorem ofText?_compact (h : item.Storable) : ofText? item.toJson.compact = some item := by
  rw [ofText?, Json.read?_compact (isWhole_toJson h)]
  exact read?_toRaw h (by decide)

end Item

end Backlog
