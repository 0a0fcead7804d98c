/-
  Merging three items in either order.

  Program: a merge of the second item into the first and then of the third into the first; or of the
  third into the second and then of the second into the first.

  Specification: if both ways succeed they leave the same items (`merge_order_irrelevant`), up to the
  order in which dependencies are listed and the time of the last write (`Item.Alike`).

  The crux is that each thing that a merge combines is combined associatively: tags (`union_assoc`),
  priorities, and descriptions (`Description.join_assoc`).  A description that comes to nothing is not
  written, but then both were blank in every part, and blank parts are left out of every later join
  (`kept_join`, `join_kept`).  Dependencies are counted instead, ID by ID.
-/
import Backlog.Proofs.Merge.Result
import Mathlib.Data.List.Forall2
import Mathlib.Data.List.Induction
import Mathlib.Order.Lattice

namespace Backlog

/-! ## Texts and descriptions joined -/

theorem Text.isBlank_append (a b : String) :
    Text.isBlank (a ++ b) = (Text.isBlank a && Text.isBlank b) := by
  rw [isBlank, String.toList_append, List.all_append]
  rfl

namespace Description

theorem joinParts_blank {a b : String} (ha : Text.isBlank a = true) (hb : Text.isBlank b = true) :
    joinParts a b = "" := by
  simp [joinParts, ha, hb]

/-- Joined parts are blank only if there is nothing in either. -/
theorem isBlank_joinParts (a b : String) :
    Text.isBlank (joinParts a b) = (Text.isBlank a && Text.isBlank b) := by
  unfold joinParts
  cases ha : Text.isBlank a <;> cases hb : Text.isBlank b <;> simp [Text.isBlank_append, ha, hb]
  rfl

theorem isEmpty_joinParts (a b : String) :
    (joinParts a b).isEmpty = (Text.isBlank a && Text.isBlank b) := by
  rw [← isBlank_joinParts, Bool.eq_iff_iff]
  constructor
  · intro h
    rw [String.isEmpty_iff.mp h]
    rfl
  · intro h
    obtain ⟨ha, hb⟩ := Bool.and_eq_true_iff.mp ((isBlank_joinParts a b).symm.trans h)
    rw [joinParts_blank ha hb]
    rfl

/-- One blank part is as good as another. -/
theorem joinParts_congr_left {a a' : String} (ha : Text.isBlank a = true)
    (ha' : Text.isBlank a' = true) (b : String) : joinParts a b = joinParts a' b := by
  cases hb : Text.isBlank b <;> simp [joinParts, ha, ha', hb]

theorem joinParts_congr_right (a : String) {b b' : String} (hb : Text.isBlank b = true)
    (hb' : Text.isBlank b' = true) : joinParts a b = joinParts a b' := by
  cases ha : Text.isBlank a <;> simp [joinParts, ha, hb, hb']

theorem joinParts_assoc (a b c : String) :
    joinParts (joinParts a b) c = joinParts a (joinParts b c) := by
  have hempty : Text.isBlank "" = true := rfl
  cases ha : Text.isBlank a <;> cases hb : Text.isBlank b <;> cases hc : Text.isBlank c <;>
    simp [joinParts, Text.isBlank_append, ha, hb, hc, hempty, String.append_assoc]

/-- It does not matter which two of three descriptions are joined first. -/
theorem join_assoc (p q r : Description) : (p.join q).join r = p.join (q.join r) := by
  simp only [join, joinParts_assoc]

/-- Whether every part is blank. -/
def isBlank (d : Description) : Bool :=
  Text.isBlank d.context && Text.isBlank d.problem && Text.isBlank d.solution
    && Text.isBlank d.impact && Text.isBlank d.sizingRationale

theorem isBlank_join (p q : Description) : (p.join q).isBlank = (p.isBlank && q.isBlank) := by
  simp only [isBlank, join, isBlank_joinParts]
  ac_rfl

theorem isEmpty_join (p q : Description) : (p.join q).isEmpty = (p.join q).isBlank := by
  simp only [isBlank, isEmpty, join, isBlank_joinParts, isEmpty_joinParts]

theorem isBlank_iff {d : Description} : d.isBlank = true ↔
    Text.isBlank d.context = true ∧ Text.isBlank d.problem = true ∧ Text.isBlank d.solution = true ∧
      Text.isBlank d.impact = true ∧ Text.isBlank d.sizingRationale = true := by
  simp only [isBlank, Bool.and_eq_true, and_assoc]

theorem join_congr_left {p p' : Description} (hp : p.isBlank = true) (hp' : p'.isBlank = true)
    (q : Description) : p.join q = p'.join q := by
  obtain ⟨h₁, h₂, h₃, h₄, h₅⟩ := isBlank_iff.mp hp
  obtain ⟨h₁', h₂', h₃', h₄', h₅'⟩ := isBlank_iff.mp hp'
  simp only [join, joinParts_congr_left h₁ h₁', joinParts_congr_left h₂ h₂',
    joinParts_congr_left h₃ h₃', joinParts_congr_left h₄ h₄', joinParts_congr_left h₅ h₅']

theorem join_congr_right (p : Description) {q q' : Description} (hq : q.isBlank = true)
    (hq' : q'.isBlank = true) : p.join q = p.join q' := by
  obtain ⟨h₁, h₂, h₃, h₄, h₅⟩ := isBlank_iff.mp hq
  obtain ⟨h₁', h₂', h₃', h₄', h₅'⟩ := isBlank_iff.mp hq'
  simp only [join, joinParts_congr_right _ h₁ h₁', joinParts_congr_right _ h₂ h₂',
    joinParts_congr_right _ h₃ h₃', joinParts_congr_right _ h₄ h₄', joinParts_congr_right _ h₅ h₅']

/-- The description of an item that takes in another: its own, if the two come to nothing. -/
def kept (target source : Description) : Description :=
  if (target.join source).isEmpty then target else target.join source

theorem isBlank_kept {p q : Description} (h : (p.join q).isEmpty = true) :
    (p.join q).isBlank = true ∧ p.isBlank = true := by
  rw [isEmpty_join] at h
  exact ⟨h, (Bool.and_eq_true_iff.mp ((isBlank_join p q).symm.trans h)).1⟩

theorem kept_join (p q r : Description) : (p.kept q).join r = (p.join q).join r := by
  unfold kept
  split
  · next h => exact join_congr_left (isBlank_kept h).2 (isBlank_kept h).1 r
  · rfl

/-- What comes to nothing with a third description comes to nothing without it. -/
theorem isEmpty_of_join {p q r : Description} (h : ((p.join q).join r).isEmpty = true) :
    (p.join q).isEmpty = true := by
  rw [isEmpty_join] at h ⊢
  exact (Bool.and_eq_true_iff.mp ((isBlank_join (p.join q) r).symm.trans h)).1

theorem join_kept (p q r : Description) : p.join (q.kept r) = p.join (q.join r) := by
  unfold kept
  split
  · next h => exact join_congr_right p (isBlank_kept h).2 (isBlank_kept h).1
  · rfl

end Description

/-- Only the last value put under a key counts. -/
theorem Dict.insert_insert {α : Type} (d : Dict α) (key : String) (first last : α) :
    (d.insert key first).insert key last = d.insert key last := by
  refine Dict.ext_get? fun other => ?_
  simp only [Dict.get?_insert]
  split <;> rfl

namespace Item

variable {now : Stamp} {source target : String} {item : Item}

/-! ## Lists united -/

theorem union_append (xs ys : List String) (y : String) :
    union xs (ys ++ [y]) = if (union xs ys).contains y then union xs ys else union xs ys ++ [y] := by
  rw [union, List.foldl_append]
  rfl

theorem mem_union {xs ys : List String} {z : String} : z ∈ union xs ys ↔ z ∈ xs ∨ z ∈ ys := by
  rw [union_eq, List.mem_append, List.mem_eraseDups, List.mem_filter, decide_eq_true_eq]
  by_cases hz : z ∈ xs <;> simp [hz]

/-- It does not matter which two of three lists are united first. -/
theorem union_assoc (xs ys zs : List String) : union (union xs ys) zs = union xs (union ys zs) := by
  induction zs using List.reverseRecOn with
  | nil => rfl
  | append_singleton zs z ih =>
    rw [union_append, union_append ys zs z, ih]
    by_cases hz : z ∈ union ys zs
    · have hz' : z ∈ union xs (union ys zs) := mem_union.mpr (.inr hz)
      rw [if_pos (List.contains_iff_mem.mpr hz), if_pos (List.contains_iff_mem.mpr hz')]
    · rw [if_neg (mt List.contains_iff_mem.mp hz), union_append]

/-- Each text that is new is added once. -/
theorem count_union (xs ys : List String) (d : String) :
    (union xs ys).count d = xs.count d + if d ∈ ys ∧ d ∉ xs then 1 else 0 := by
  induction ys generalizing xs with
  | nil => simp [union]
  | cons y ys ih =>
    have hstep : union xs (y :: ys) = union (if xs.contains y then xs else xs ++ [y]) ys := rfl
    by_cases hy : y ∈ xs
    · have hsame : (d ∈ y :: ys ∧ d ∉ xs) ↔ d ∈ ys ∧ d ∉ xs := by
        constructor
        · rintro ⟨hd, hnew⟩
          exact ⟨(List.mem_cons.mp hd).resolve_left fun h => hnew (h ▸ hy), hnew⟩
        · rintro ⟨hd, hnew⟩
          exact ⟨List.mem_cons_of_mem _ hd, hnew⟩
      rw [hstep, if_pos (List.contains_iff_mem.mpr hy), ih]
      simp only [hsame]
    · rw [hstep, if_neg (by simpa using hy), ih, List.count_append]
      by_cases hd : d = y
      · subst hd
        simp [hy]
      · simp [hd, Ne.symm hd]

/-! ## Dependencies counted -/

theorem count_absorb (now : Stamp) (source target : Item) (d : String) :
    (absorb now source target).dependencies.count d =
      if d = source.id then 0
      else target.dependencies.count d +
        if d ∈ source.dependencies ∧ d ≠ target.id ∧ d ∉ target.dependencies then 1 else 0 := by
  have hdependencies : (absorb now source target).dependencies
      = (union target.dependencies (source.dependencies.filter fun d =>
          d ≠ target.id ∧ d ≠ source.id)).filter (· ≠ source.id) := by
    simp only [absorb]
    split <;> rfl
  rw [hdependencies]
  split
  · next hd => exact List.count_eq_zero.mpr (by simp [hd])
  · next hd =>
    have hforeign : (d ∈ source.dependencies.filter (fun d => d ≠ target.id ∧ d ≠ source.id) ∧
        d ∉ target.dependencies) ↔
          d ∈ source.dependencies ∧ d ≠ target.id ∧ d ∉ target.dependencies := by
      simp [hd, and_assoc]
    have hkept : ∀ ds : List String, (ds.filter (· ≠ source.id)).count d = ds.count d :=
      fun ds => List.count_filter (decide_eq_true hd)
    rw [hkept, count_union]
    simp only [hforeign]

theorem count_redirect (now : Stamp) (hne : source ≠ target) (item : Item) (d : String) :
    (item.redirect now source target).dependencies.count d =
      if d = source then 0
      else if d = target ∧ source ∈ item.dependencies then max 1 (item.dependencies.count target)
      else item.dependencies.count d := by
  have hredirects := redirects_redirect now hne item
  by_cases hdepends : source ∈ item.dependencies
  · simp only [hredirects.counts hdepends, hdepends, and_true]
  · rw [hredirects.untouched hdepends]
    split
    · next hd => exact List.count_eq_zero.mpr (hd ▸ hdepends)
    · rw [if_neg fun h => hdepends h.2]

/-! ## What is written besides -/

/-- The item without its dependencies and the time of its last write. -/
def aside (item : Item) : Item := { item with dependencies := [], updatedAt := item.createdAt }

theorem aside_redirect (now : Stamp) (source target : String) (item : Item) :
    (item.redirect now source target).aside = item.aside := by
  unfold redirect
  split <;> rfl

theorem aside_absorb (now : Stamp) (source target : Item) :
    (absorb now source target).aside = { target.aside with
      tags := union target.tags source.tags
      priority := max target.priority source.priority
      description := (absorb now source target).description
      extensions := (absorb now source target).extensions } := by
  simp only [absorb]
  split <;> rfl

theorem extensions_absorb (now : Stamp) (source target : Item) :
    (absorb now source target).extensions =
      if (target.fullDescription.join source.fullDescription).isEmpty then target.extensions
      else target.extensions.insert Key.description.name
        (target.fullDescription.join source.fullDescription).toJson := by
  simp only [absorb]
  split <;> rfl

theorem description_absorb (now : Stamp) (source target : Item) :
    (absorb now source target).description =
      if (target.fullDescription.join source.fullDescription).isEmpty then target.description
      else notBlank (some (target.fullDescription.join source.fullDescription).context) := by
  split
  · next hjoined => exact ((takesIn_absorb now source target).undescribed hjoined).2
  · next hjoined =>
    exact ((takesIn_absorb now source target).described (Bool.eq_false_iff.mpr hjoined)).2

theorem fullDescription_absorb (now : Stamp) (source target : Item) :
    (absorb now source target).fullDescription
      = target.fullDescription.kept source.fullDescription := by
  unfold Description.kept
  split
  · next hjoined =>
    obtain ⟨hextensions, hdescription⟩ := (takesIn_absorb now source target).undescribed hjoined
    simp only [fullDescription, structured, inspectStructured, extension?, hextensions, hdescription]
  · next hjoined =>
    have hstructured :=
      ((takesIn_absorb now source target).described (Bool.eq_false_iff.mpr hjoined)).1
    rw [fullDescription, hstructured, Option.getD_some]

theorem tags_absorb (now : Stamp) (source target : Item) :
    (absorb now source target).tags = union target.tags source.tags :=
  congrArg tags (aside_absorb now source target)

theorem priority_absorb (now : Stamp) (source target : Item) :
    (absorb now source target).priority = max target.priority source.priority :=
  congrArg priority (aside_absorb now source target)

/-- What is absorbed and written of an item does not depend on the dependencies of either. -/
theorem aside_absorb_congr {now now' : Stamp} {s s' t t' : Item} (hs : s.aside = s'.aside)
    (ht : t.aside = t'.aside) : (absorb now s t).aside = (absorb now' s' t').aside := by
  have htags : union t.tags s.tags = union t'.tags s'.tags :=
    congrArg₂ union (congrArg tags ht :) (congrArg tags hs :)
  have hpriority : max t.priority s.priority = max t'.priority s'.priority :=
    congrArg₂ max (congrArg priority ht :) (congrArg priority hs :)
  have hjoined : t.fullDescription.join s.fullDescription
      = t'.fullDescription.join s'.fullDescription :=
    congrArg₂ Description.join (congrArg fullDescription ht :) (congrArg fullDescription hs :)
  have hdescription : t.description = t'.description := (congrArg description ht :)
  have hextensions : t.extensions = t'.extensions := (congrArg extensions ht :)
  simp only [aside_absorb, description_absorb, extensions_absorb, ht, htags, hpriority, hjoined,
    hdescription, hextensions]

/-- It does not matter which two of three items are merged first. -/
theorem aside_absorb_absorb (now₁ now₂ now₃ now₄ : Stamp) (a b c : Item) :
    (absorb now₂ c (absorb now₁ b a)).aside = (absorb now₄ (absorb now₃ c b) a).aside := by
  have hjoined : (absorb now₁ b a).fullDescription.join c.fullDescription
      = a.fullDescription.join (absorb now₃ c b).fullDescription := by
    rw [fullDescription_absorb, fullDescription_absorb, Description.kept_join,
      Description.join_kept, Description.join_assoc]
  -- if all three come to nothing, so do the first two, and neither merge writes a description
  have hfirst : (a.fullDescription.join (absorb now₃ c b).fullDescription).isEmpty = true →
      (a.fullDescription.join b.fullDescription).isEmpty = true := by
    rw [fullDescription_absorb, Description.join_kept, ← Description.join_assoc]
    exact Description.isEmpty_of_join
  have hdescription : (absorb now₂ c (absorb now₁ b a)).description
      = (absorb now₄ (absorb now₃ c b) a).description := by
    rw [description_absorb, description_absorb now₄, hjoined]
    split
    · next hempty => rw [description_absorb, if_pos (hfirst hempty)]
    · rfl
  have hextensions : (absorb now₂ c (absorb now₁ b a)).extensions
      = (absorb now₄ (absorb now₃ c b) a).extensions := by
    rw [extensions_absorb, extensions_absorb now₄, hjoined]
    split
    · next hempty => rw [extensions_absorb, if_pos (hfirst hempty)]
    · rw [extensions_absorb]
      split
      · rfl
      · exact Dict.insert_insert ..
  have htags : (absorb now₂ c (absorb now₁ b a)).tags = (absorb now₄ (absorb now₃ c b) a).tags := by
    rw [tags_absorb, tags_absorb, tags_absorb, tags_absorb, union_assoc]
  have hpriority : (absorb now₂ c (absorb now₁ b a)).priority
      = (absorb now₄ (absorb now₃ c b) a).priority := by
    rw [priority_absorb, priority_absorb, priority_absorb, priority_absorb, Int.max_assoc]
  rw [tags_absorb, tags_absorb now₄] at htags
  rw [priority_absorb, priority_absorb now₄] at hpriority
  rw [aside_absorb, aside_absorb now₁, aside_absorb now₄, hdescription, hextensions, htags, hpriority]

/-! ## Items alike -/

/-- Two items that differ in no more than the order of their dependencies and the time of the last
    write. -/
structure Alike (x y : Item) : Prop where
  dependencies : x.dependencies.Perm y.dependencies
  rest : y = { x with dependencies := y.dependencies, updatedAt := y.updatedAt }

theorem Alike.of_aside {x y : Item} (haside : x.aside = y.aside)
    (hcount : ∀ d, x.dependencies.count d = y.dependencies.count d) : Alike x y := by
  refine ⟨List.perm_iff_count.mpr hcount, ?_⟩
  clear hcount
  cases x
  cases y
  simp only [aside, mk.injEq] at haside
  simp only [haside]

/-- Whoever depended on any of the three depends on the first, as often either way. -/
theorem alike_redirect {a b c : String} (hba : b ≠ a) (hca : c ≠ a) (hcb : c ≠ b)
    (now₁ now₂ now₃ now₄ : Stamp) (item : Item) :
    Alike ((item.redirect now₁ b a).redirect now₂ c a)
      ((item.redirect now₃ c b).redirect now₄ b a) := by
  refine .of_aside (by simp only [aside_redirect]) fun d => ?_
  simp only [count_redirect _ hba, count_redirect _ hca, count_redirect _ hcb,
    mem_dependencies_redirect]
  by_cases hc : d = c
  · subst hc
    simp [hca, hcb]
  · by_cases hb : d = b
    · subst hb
      simp [hba, hc]
    · by_cases ha : d = a
      · subst ha
        by_cases hbi : b ∈ item.dependencies <;> by_cases hci : c ∈ item.dependencies <;>
          simp [hb, hc, hca, hcb, Ne.symm hcb, hbi, hci]
      · simp [ha, hb, hc]

/-- The first takes in the other two in either order. -/
theorem alike_absorb {a b c : Item} (hba : b.id ≠ a.id) (hca : c.id ≠ a.id) (hcb : c.id ≠ b.id)
    (now₁ now₂ now₃ now₄ : Stamp) :
    Alike (absorb now₂ (c.redirect now₁ b.id a.id) (absorb now₁ b a))
      (absorb now₄ (absorb now₃ c b) (a.redirect now₃ c.id b.id)) := by
  have hid₁ : (absorb now₁ b a).id = a.id := id_eq_of_identity (identity_absorb now₁ b a)
  have hid₃ : (absorb now₃ c b).id = b.id := id_eq_of_identity (identity_absorb now₃ c b)
  have hidc : (c.redirect now₁ b.id a.id).id = c.id :=
    id_eq_of_identity (identity_redirect now₁ b.id a.id c)
  have hida : (a.redirect now₃ c.id b.id).id = a.id :=
    id_eq_of_identity (identity_redirect now₃ c.id b.id a)
  refine .of_aside ?_ fun d => ?_
  · calc (absorb now₂ (c.redirect now₁ b.id a.id) (absorb now₁ b a)).aside
      _ = (absorb now₂ c (absorb now₁ b a)).aside := aside_absorb_congr (aside_redirect ..) rfl
      _ = (absorb now₄ (absorb now₃ c b) a).aside := aside_absorb_absorb ..
      _ = (absorb now₄ (absorb now₃ c b) (a.redirect now₃ c.id b.id)).aside :=
        aside_absorb_congr rfl (aside_redirect ..).symm
  · simp only [count_absorb, count_redirect _ hcb, mem_dependencies_absorb,
      mem_dependencies_redirect, hid₁, hid₃, hidc, hida]
    by_cases hc : d = c.id
    · simp [hc, hca, hcb]
    · by_cases hb : d = b.id
      · subst hb
        simp [hba, hc]
      · simp only [hb, hc, if_false, false_and, ne_eq, not_false_eq_true, true_and]
        by_cases ha : d = a.id
        · simp [ha]
        · by_cases hda : d ∈ a.dependencies <;> by_cases hdb : d ∈ b.dependencies <;> simp [ha, hda, hdb]

/-- What becomes of an item that stays when the second and the third are merged away, in either order. -/
theorem alike_merged {a : String} {b c item : Item} (hba : b.id ≠ a) (hca : c.id ≠ a)
    (hcb : c.id ≠ b.id) (hb : item.id ≠ b.id) (now₁ now₂ now₃ now₄ : Stamp) :
    Alike (merged now₂ c.id a (c.redirect now₁ b.id a) (merged now₁ b.id a b item))
      (merged now₄ b.id a (absorb now₃ c b) (merged now₃ c.id b.id c item)) := by
  have hsecond : merged now₃ c.id b.id c item = item.redirect now₃ c.id b.id := if_neg hb
  by_cases ha : item.id = a
  · subst ha
    have hfirst : merged now₁ b.id item.id b item = absorb now₁ b item := if_pos rfl
    rw [merged, id_merged, if_pos rfl, hfirst, merged, id_merged, if_pos rfl, hsecond]
    exact alike_absorb hba hca hcb now₁ now₂ now₃ now₄
  · have hfirst : merged now₁ b.id a b item = item.redirect now₁ b.id a := if_neg ha
    rw [merged, id_merged, if_neg ha, hfirst, merged, id_merged, if_neg ha, hsecond]
    exact alike_redirect hba hca hcb now₁ now₂ now₃ now₄ item

end Item

/-! ## Two merges -/

variable {now : Stamp} {items : List Item} {source target : String} {leaving : Item}

/-- An item that stays is found in the list after the merge, merged. -/
theorem findItem_mergedItems (hdistinct : (ids items).Nodup) {item : Item} (hitem : item ∈ items)
    (hstays : item.id ≠ source) :
    findItem item.id (mergedItems now items source target leaving)
      = some (Item.merged now source target leaving item) := by
  have hmem : Item.merged now source target leaving item
      ∈ mergedItems now items source target leaving := mem_mergedItems.mpr ⟨item, hitem, hstays, rfl⟩
  have hfound := findItem_of_mem (nodup_ids_mergedItems hdistinct) hmem
  rwa [Item.id_merged] at hfound

/-- Two merges are one map over the items that stay. -/
theorem mergedItems_mergedItems (now₁ now₂ : Stamp) (items : List Item) (b c x y : String)
    (leaving₁ leaving₂ : Item) :
    mergedItems now₂ (mergedItems now₁ items b x leaving₁) c y leaving₂ =
      (items.filter fun i => i.id ≠ b ∧ i.id ≠ c).map
        fun i => Item.merged now₂ c y leaving₂ (Item.merged now₁ b x leaving₁ i) := by
  rw [mergedItems, mergedItems, List.filter_map, List.map_map, List.filter_filter]
  refine congrArg (List.map _) (List.filter_congr fun i _ => ?_)
  simp [Item.id_merged, Bool.and_comm]

/-- Merging a second item into a first and a third into the first leaves what merging the third into the
    second and that into the first leaves: the same items in the same order, which differ at most in
    the order of dependencies and the time of the last write. -/
theorem merge_order_irrelevant {now₁ now₂ now₃ now₄ : Stamp} {items mid after mid' after' : List Item}
    {a b c : String} {retired₁ retired₂ retired₃ retired₄ : Item} (hdistinct : (ids items).Nodup)
    (h₁ : foldInto now₁ items b a = .ok (retired₁, mid))
    (h₂ : foldInto now₂ mid c a = .ok (retired₂, after))
    (h₃ : foldInto now₃ items c b = .ok (retired₃, mid'))
    (h₄ : foldInto now₄ mid' b a = .ok (retired₄, after')) :
    ids after = (ids items).filter (fun id => id ≠ b ∧ id ≠ c) ∧ ids after' = ids after ∧
      List.Forall₂ Item.Alike after after' := by
  obtain ⟨hba, ha, leavingB, hfoundB, -, rfl⟩ := foldInto_ok hdistinct h₁
  obtain ⟨hcb, hb, leavingC, hfoundC, -, rfl⟩ := foldInto_ok hdistinct h₃
  obtain ⟨hca, -, leavingC', hfoundC', -, rfl⟩ := foldInto_ok (nodup_ids_mergedItems hdistinct) h₂
  obtain ⟨-, -, leavingB', hfoundB', -, rfl⟩ := foldInto_ok (nodup_ids_mergedItems hdistinct) h₄
  have hB := List.mem_of_find?_eq_some hfoundB
  have hC := List.mem_of_find?_eq_some hfoundC
  obtain rfl := id_of_findItem hfoundB
  obtain rfl := id_of_findItem hfoundC
  -- the third was redirected when the second left, and the second took in the third
  obtain rfl : leavingC.redirect now₁ leavingB.id a = leavingC' := by
    rw [findItem_mergedItems hdistinct hC hcb, Item.merged, if_neg hca] at hfoundC'
    exact Option.some.inj hfoundC'
  obtain rfl : Item.absorb now₃ leavingC leavingB = leavingB' := by
    rw [findItem_mergedItems hdistinct hB hcb.symm, Item.merged, if_pos rfl] at hfoundB'
    exact Option.some.inj hfoundB'
  have hids : ∀ ids : List String, (ids.filter (· ≠ leavingC.id)).filter (· ≠ leavingB.id)
      = (ids.filter (· ≠ leavingB.id)).filter (· ≠ leavingC.id) := by
    intro ids
    simp only [List.filter_filter, Bool.and_comm]
  refine ⟨?_, ?_, ?_⟩
  · rw [ids_mergedItems, ids_mergedItems, List.filter_filter]
    refine List.filter_congr fun id _ => ?_
    simp [Bool.and_comm]
  · simp only [ids_mergedItems, hids]
  · have hothers : (items.filter fun i => i.id ≠ leavingC.id ∧ i.id ≠ leavingB.id)
        = items.filter fun i => i.id ≠ leavingB.id ∧ i.id ≠ leavingC.id :=
      List.filter_congr fun i _ => by simp [Bool.and_comm]
    rw [mergedItems_mergedItems, mergedItems_mergedItems, hothers, List.forall₂_map_left_iff,
      List.forall₂_map_right_iff, List.forall₂_same]
    intro i hi
    obtain ⟨-, hstays⟩ := List.mem_filter.mp hi
    obtain ⟨hib, -⟩ := of_decide_eq_true hstays
    exact Item.alike_merged hba hca hcb hib now₁ now₂ now₃ now₄

/-- Three items to merge, described and tagged, and one that depends on two of them. -/
def layeredSample : List Item :=
  [{ dependent "WRK-1" ["WRK-2", "WRK-3"] with tags := ["a"], description := some "first" },
    { dependent "WRK-2" ["WRK-3", "OLD-1"] with tags := ["b", "a"], priority := 2 },
    { dependent "WRK-3" ["OLD-2", "OLD-1"] with tags := ["c", "b"], description := some "third" },
    dependent "WRK-4" ["WRK-3", "WRK-2"]]

/-- The three merged one way and the other. -/
theorem merge_order_irrelevant_layered :
    (ids layeredSample).Nodup ∧
    ∃ mid after mid' after' : List Item, ∃ retired₁ retired₂ retired₃ retired₄ : Item,
      foldInto ⟨1, 0⟩ layeredSample "WRK-2" "WRK-1" = .ok (retired₁, mid) ∧
      foldInto ⟨2, 0⟩ mid "WRK-3" "WRK-1" = .ok (retired₂, after) ∧
      foldInto ⟨1, 0⟩ layeredSample "WRK-3" "WRK-2" = .ok (retired₃, mid') ∧
      foldInto ⟨2, 0⟩ mid' "WRK-2" "WRK-1" = .ok (retired₄, after') ∧
      ids after = ["WRK-1", "WRK-4"] ∧ List.Forall₂ Item.Alike after after' := by
  have hdistinct : (ids layeredSample).Nodup := by decide
  have hmerges : ∃ mid after mid' after' : List Item, ∃ retired₁ retired₂ retired₃ retired₄ : Item,
      foldInto ⟨1, 0⟩ layeredSample "WRK-2" "WRK-1" = .ok (retired₁, mid) ∧
      foldInto ⟨2, 0⟩ mid "WRK-3" "WRK-1" = .ok (retired₂, after) ∧
      foldInto ⟨1, 0⟩ layeredSample "WRK-3" "WRK-2" = .ok (retired₃, mid') ∧
      foldInto ⟨2, 0⟩ mid' "WRK-2" "WRK-1" = .ok (retired₄, after') :=
    ⟨_, _, _, _, _, _, _, _, rfl, rfl, rfl, rfl⟩
  obtain ⟨mid, after, mid', after', retired₁, retired₂, retired₃, retired₄, h₁, h₂, h₃, h₄⟩ := hmerges
  obtain ⟨hids, -, halike⟩ := merge_order_irrelevant hdistinct h₁ h₂ h₃ h₄
  exact ⟨hdistinct, mid, after, mid', after', retired₁, retired₂, retired₃, retired₄, h₁, h₂, h₃, h₄,
    hids, halike⟩

end Backlog
