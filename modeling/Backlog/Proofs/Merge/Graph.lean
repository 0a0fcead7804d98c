/-
  Which merges close a cycle.

  Program: the source's dependencies become the target's, dependencies on the source become
  dependencies on the target, and then a cycle is searched for through the target.

  Specification: a merge makes one item of two.  In the graph of dependencies it is refused exactly if
  the target depends on itself, or if some third item lies on a way from one of the two back to one
  of the two (`cycle_iff_between`).  What the two say of each other does not count, and a graph without
  cycles stays one.

  The crux is that the graph of the items merged is the old one with the source renamed to the target
  and the edges between the two left out (`dependsOn_mergedItems`).  A way in the old graph is one in
  the new, unless all of it shrinks to the target (`merged_of_reaches`); and a way in the new graph that
  keeps clear of the target was there before (`reaches_of_merged`).
-/
import Backlog.Proofs.Merge.Result
import Backlog.Proofs.Merge.Search

namespace Backlog

open Relation (TransGen)

variable {now : Stamp} {items after : List Item} {source target : String} {leaving retired : Item}

/-! ## The graph of the items merged -/

/-- The name that an item goes by after a merge. -/
def mergedName (source target id : String) : String := if id = source then target else id

/-- Dependencies that a merge leaves out: of the source on itself, and of the two on each other. -/
def Absorbed (source target a b : String) : Prop :=
  a = source ∧ (b = source ∨ b = target) ∨ a = target ∧ b = source

/-- The graph of dependencies in which two items are one. -/
def MergedDependsOn (items : List Item) (source target a b : String) : Prop :=
  ∃ x y, DependsOn items x y ∧ ¬ Absorbed source target x y ∧
    mergedName source target x = a ∧ mergedName source target y = b

theorem mergedName_of_ne {id : String} (h : id ≠ source) : mergedName source target id = id := if_neg h

theorem mergedName_source : mergedName source target source = target := if_pos rfl

theorem mergedName_eq_target_iff {id : String} :
    mergedName source target id = target ↔ id = source ∨ id = target := by
  unfold mergedName
  split
  · next h => simp [h]
  · next h => simp [h]

theorem eq_of_mergedName {a id : String} (h : mergedName source target a = id) (hid : id ≠ target) :
    a = id := by
  unfold mergedName at h
  split at h
  · exact absurd h.symm hid
  · exact h

/-- The items merged depend on each other as the two graphs say. -/
theorem dependsOn_mergedItems (hdistinct : (ids items).Nodup) (hne : source ≠ target)
    (hleaving : findItem source items = some leaving) (htarget : target ∈ ids items) {a b : String} :
    DependsOn (mergedItems now items source target leaving) a b ↔
      MergedDependsOn items source target a b := by
  have hid : leaving.id = source := id_of_findItem hleaving
  have hsource : leaving ∈ items := List.mem_of_find?_eq_some hleaving
  have hthere : source ∈ ids items := hid ▸ List.mem_map_of_mem hsource
  have hstays : ∀ id, id ∈ ids (mergedItems now items source target leaving) ↔
      id ∈ ids items ∧ id ≠ source := by
    intro id
    rw [ids_mergedItems, List.mem_filter, decide_eq_true_eq]
  constructor
  · rintro ⟨i, hi, rfl, hb, hb'⟩
    obtain ⟨j, hj, hjs, rfl⟩ := mem_mergedItems.mp hi
    obtain ⟨hbthere, hbs⟩ := (hstays b).mp hb'
    rw [Item.id_merged]
    unfold Item.merged at hb
    split at hb
    · -- the target
      next hjt =>
      rcases (Item.mem_dependencies_absorb.mp hb).2 with hb | ⟨hb, hbt⟩
      · refine ⟨j.id, b, ⟨j, hj, rfl, hb, hbthere⟩, ?_, mergedName_of_ne hjs, mergedName_of_ne hbs⟩
        rintro (⟨h, -⟩ | ⟨-, h⟩)
        · exact hjs h
        · exact hbs h
      · rw [hjt] at hbt
        refine ⟨source, b, ⟨leaving, hsource, hid, hb, hbthere⟩, ?_, ?_, mergedName_of_ne hbs⟩
        · rintro (⟨-, h | h⟩ | ⟨-, h⟩)
          · exact hbs h
          · exact hbt h
          · exact hbs h
        · rw [hjt]
          exact mergedName_source
    · -- any other item
      next hjt =>
      rcases Item.mem_dependencies_redirect.mp hb with ⟨-, hb⟩ | ⟨rfl, hdepends⟩
      · refine ⟨j.id, b, ⟨j, hj, rfl, hb, hbthere⟩, ?_, mergedName_of_ne hjs, mergedName_of_ne hbs⟩
        rintro (⟨h, -⟩ | ⟨-, h⟩)
        · exact hjs h
        · exact hbs h
      · refine ⟨j.id, source, ⟨j, hj, rfl, hdepends, hthere⟩, ?_, mergedName_of_ne hjs, mergedName_source⟩
        rintro (⟨h, -⟩ | ⟨h, -⟩)
        · exact hjs h
        · exact hjt h
  · rintro ⟨x, y, ⟨j, hj, rfl, hy, hythere⟩, hkept, rfl, rfl⟩
    have hyname : mergedName source target y ∈ ids (mergedItems now items source target leaving) := by
      by_cases hys : y = source
      · rw [hys, mergedName_source]
        exact (hstays target).mpr ⟨htarget, hne.symm⟩
      · rw [mergedName_of_ne hys]
        exact (hstays y).mpr ⟨hythere, hys⟩
    by_cases hjs : j.id = source
    · -- the dependencies of the source are those of the target now
      have hsame : j = leaving := by
        have hfound := findItem_of_mem hdistinct hj
        rw [hjs, hleaving] at hfound
        exact (Option.some.inj hfound).symm
      subst hsame
      obtain ⟨t, ht, rfl⟩ := List.mem_map.mp htarget
      have hys : y ≠ source := fun h => hkept (.inl ⟨hjs, .inl h⟩)
      have hyt : y ≠ t.id := fun h => hkept (.inl ⟨hjs, .inr h⟩)
      rw [hjs, mergedName_source]
      refine ⟨Item.merged now source t.id j t, mem_mergedItems.mpr ⟨t, ht, hne.symm, rfl⟩,
        Item.id_merged .., ?_, hyname⟩
      rw [Item.merged, if_pos rfl, mergedName_of_ne hys, Item.mem_dependencies_absorb, hjs]
      exact ⟨hys, .inr ⟨hy, hyt⟩⟩
    · rw [mergedName_of_ne hjs]
      refine ⟨Item.merged now source target leaving j, mem_mergedItems.mpr ⟨j, hj, hjs, rfl⟩,
        Item.id_merged .., ?_, hyname⟩
      rw [Item.merged]
      split
      · next hjt =>
        have hys : y ≠ source := fun h => hkept (.inr ⟨hjt, h⟩)
        rw [mergedName_of_ne hys, Item.mem_dependencies_absorb, hid]
        exact ⟨hys, .inl hy⟩
      · next hjt =>
        rw [Item.mem_dependencies_redirect]
        by_cases hys : y = source
        · rw [hys, mergedName_source]
          exact .inr ⟨rfl, hys ▸ hy⟩
        · rw [mergedName_of_ne hys]
          exact .inl ⟨hys, hy⟩

/-! ## Ways through the two graphs -/

/-- Both ends of a dependency that is left out go by the target's name. -/
theorem mergedName_of_absorbed {a b : String} (h : Absorbed source target a b) :
    mergedName source target a = target ∧ mergedName source target b = target := by
  rw [mergedName_eq_target_iff, mergedName_eq_target_iff]
  rcases h with ⟨ha, hb⟩ | ⟨ha, hb⟩
  · exact ⟨.inl ha, hb⟩
  · exact ⟨.inr ha, .inl hb⟩

/-- A way through the graph is one through the merged graph, unless all of it shrinks to the target. -/
theorem merged_of_reaches (source target : String) {a b : String} (h : Reaches items a b) :
    TransGen (MergedDependsOn items source target) (mergedName source target a)
        (mergedName source target b) ∨
      mergedName source target a = target ∧ mergedName source target b = target := by
  induction h with
  | @single b hedge =>
    by_cases hout : Absorbed source target a b
    · exact .inr (mergedName_of_absorbed hout)
    · exact .inl (.single ⟨a, b, hedge, hout, rfl, rfl⟩)
  | @tail b c _ hedge ih =>
    by_cases hout : Absorbed source target b c
    · obtain ⟨hb, hc⟩ := mergedName_of_absorbed hout
      rw [hb] at ih
      rw [hc]
      exact ih
    · have hkept : MergedDependsOn items source target (mergedName source target b)
          (mergedName source target c) := ⟨b, c, hedge, hout, rfl, rfl⟩
      rcases ih with ih | ⟨ha, hb⟩
      · exact .inl (.tail ih hkept)
      · rw [hb] at hkept
        rw [ha]
        exact .inl (.single hkept)

/-- A dependency that does not involve the target was there before the merge. -/
theorem dependsOn_of_merged {a b : String} (h : MergedDependsOn items source target a b)
    (ha : a ≠ target) (hb : b ≠ target) : DependsOn items a b := by
  obtain ⟨x, y, hedge, -, hx, hy⟩ := h
  rw [← eq_of_mergedName hx ha, ← eq_of_mergedName hy hb]
  exact hedge

/-- A way through the merged graph leads past the target, or was there before the merge. -/
theorem reaches_of_merged {a b : String} (h : TransGen (MergedDependsOn items source target) a b)
    (ha : a ≠ target) (hb : b ≠ target) :
    TransGen (MergedDependsOn items source target) a target ∧
      TransGen (MergedDependsOn items source target) target b ∨ Reaches items a b := by
  induction h with
  | single hedge => exact .inr (.single (dependsOn_of_merged hedge ha hb))
  | @tail b c hway hedge ih =>
    by_cases hbt : b = target
    · subst hbt
      exact .inl ⟨hway, .single hedge⟩
    · rcases ih hbt with ⟨hto, hfrom⟩ | hway
      · exact .inl ⟨hto, .tail hfrom hedge⟩
      · exact .inr (.tail hway (dependsOn_of_merged hedge hbt hb))

/-- A dependency on the target was one on the source or on the target. -/
theorem dependsOn_pole_of_merged {a : String} (h : MergedDependsOn items source target a target)
    (ha : a ≠ target) : DependsOn items a source ∨ DependsOn items a target := by
  obtain ⟨x, y, hedge, -, hx, hy⟩ := h
  rw [eq_of_mergedName hx ha] at hedge
  rcases mergedName_eq_target_iff.mp hy with rfl | rfl
  · exact .inl hedge
  · exact .inr hedge

/-- A way to the target through the merged graph was one to the source or to the target. -/
theorem reaches_pole_of_merged {a : String}
    (h : TransGen (MergedDependsOn items source target) a target) (ha : a ≠ target) :
    Reaches items a source ∨ Reaches items a target := by
  induction h using TransGen.head_induction_on with
  | single hedge => exact (dependsOn_pole_of_merged hedge ha).imp .single .single
  | @head a c hedge _ ih =>
    by_cases hc : c = target
    · subst hc
      exact (dependsOn_pole_of_merged hedge ha).imp .single .single
    · have hfirst : DependsOn items a c := dependsOn_of_merged hedge ha hc
      exact (ih hc).imp (.head hfirst) (.head hfirst)

/-- A way between a third item and one of the two is a way between that item and the target. -/
theorem merged_of_third {id pole : String} (hs : id ≠ source) (ht : id ≠ target)
    (hpole : mergedName source target pole = target) :
    (Reaches items pole id → TransGen (MergedDependsOn items source target) target id) ∧
      (Reaches items id pole → TransGen (MergedDependsOn items source target) id target) := by
  -- the item keeps its name, so the way does not shrink to the target
  have hid : mergedName source target id = id := mergedName_of_ne hs
  constructor
  · intro h
    rcases merged_of_reaches source target h with h | ⟨-, h⟩
    · rwa [hpole, hid] at h
    · exact absurd (hid.symm.trans h) ht
  · intro h
    rcases merged_of_reaches source target h with h | ⟨h, -⟩
    · rwa [hpole, hid] at h
    · exact absurd (hid.symm.trans h) ht

/-! ## Cycles through the target -/

/-- In a graph that two items share, some third item lies on a way from one of the two to one of them. -/
def Between (items : List Item) (source target id : String) : Prop :=
  id ≠ source ∧ id ≠ target ∧ (Reaches items source id ∨ Reaches items target id) ∧
    (Reaches items id source ∨ Reaches items id target)

/-- The merged graph has a cycle through the target exactly if the target depends on itself, or a third
    item lies between the two. -/
theorem merged_cycle_iff (hne : source ≠ target) :
    TransGen (MergedDependsOn items source target) target target ↔
      DependsOn items target target ∨ ∃ id ∈ ids items, Between items source target id := by
  constructor
  · intro h
    obtain ⟨b, ⟨x, y, hedge, hkept, hx, hy⟩, hrest⟩ := TransGen.head'_iff.mp h
    by_cases hb : b = target
    · -- the first step leads back at once, so it is no step between the two
      subst hb
      rcases mergedName_eq_target_iff.mp hx with rfl | rfl
      · exact absurd (.inl ⟨rfl, mergedName_eq_target_iff.mp hy⟩) hkept
      · rcases mergedName_eq_target_iff.mp hy with rfl | rfl
        · exact absurd (.inr ⟨rfl, rfl⟩) hkept
        · exact .inl hedge
    · -- the first step leads to a third item, and the others back from there
      obtain rfl := eq_of_mergedName hy hb
      have hys : y ≠ source := by
        rintro rfl
        exact hb (hy.symm.trans mergedName_source)
      have hback : TransGen (MergedDependsOn items source target) y target := by
        rcases Relation.reflTransGen_iff_eq_or_transGen.mp hrest with heq | hback
        · exact absurd heq.symm hb
        · exact hback
      refine .inr ⟨y, hedge.right_mem, hys, hb, ?_, reaches_pole_of_merged hback hb⟩
      rcases mergedName_eq_target_iff.mp hx with rfl | rfl
      · exact .inl (.single hedge)
      · exact .inr (.single hedge)
  · rintro (hedge | ⟨id, -, hs, ht, hfrom, hto⟩)
    · have hkept : ¬ Absorbed source target target target := by
        rintro (⟨h, -⟩ | ⟨-, h⟩)
        · exact hne h.symm
        · exact hne h.symm
      have htarget : mergedName source target target = target := mergedName_of_ne hne.symm
      exact .single ⟨target, target, hedge, hkept, htarget, htarget⟩
    · have hname : mergedName source target target = target := mergedName_of_ne hne.symm
      refine TransGen.trans (b := id) ?_ ?_
      · exact hfrom.elim (merged_of_third hs ht mergedName_source).1 (merged_of_third hs ht hname).1
      · exact hto.elim (merged_of_third hs ht mergedName_source).2 (merged_of_third hs ht hname).2

/-- A graph without cycles has none when two items are made one, unless through the target. -/
theorem acyclic_of_merged (hacyclic : Acyclic items)
    (htarget : ¬ TransGen (MergedDependsOn items source target) target target) (id : String) :
    ¬ TransGen (MergedDependsOn items source target) id id := by
  intro hcycle
  by_cases hid : id = target
  · exact htarget (hid ▸ hcycle)
  · rcases reaches_of_merged hcycle hid hid with ⟨hto, hfrom⟩ | hcycle
    · exact htarget (hfrom.trans hto)
    · exact hacyclic id hcycle

/-- From two items that depend on each other alone, no way leads to a third. -/
theorem not_between_of_closed
    (hclosed : ∀ id, DependsOn items source id ∨ DependsOn items target id → id = source ∨ id = target)
    {id : String} : ¬ Between items source target id := by
  have hstays : ∀ {a b : String}, Reaches items a b → a = source ∨ a = target →
      b = source ∨ b = target := by
    intro a b h ha
    have hstep : ∀ {x y : String}, x = source ∨ x = target → DependsOn items x y →
        y = source ∨ y = target := by
      rintro x y (rfl | rfl) hedge
      · exact hclosed y (.inl hedge)
      · exact hclosed y (.inr hedge)
    induction h with
    | single hedge => exact hstep ha hedge
    | tail _ hedge ih => exact hstep ih hedge
  rintro ⟨hs, ht, hfrom, -⟩
  have hid : id = source ∨ id = target :=
    hfrom.elim (fun h => hstays h (.inl rfl)) (fun h => hstays h (.inr rfl))
  exact hid.elim hs ht

/-! ## Merges that are refused -/

/-- A merge of two items that are there: either the search finds a cycle of the merged graph through the
    target, or there is none and the list is the merged one. -/
theorem refused_or_merged (hdistinct : (ids items).Nodup) (hsource : source ∈ ids items)
    (htarget : target ∈ ids items) (hne : source ≠ target) :
    ∃ merged, DependsOn merged = MergedDependsOn items source target ∧
      ((∃ cycle, foldInto now items source target = .error (.dependencyCycle target cycle) ∧
          (∃ between, cycle = target :: between ++ [target]) ∧
          cycle.IsChain (MergedDependsOn items source target) ∧
          (DependsOn items target target ∨ ∃ id ∈ ids items, Between items source target id)) ∨
        (∃ retired, foldInto now items source target = .ok (retired, merged)) ∧
          ¬ (DependsOn items target target ∨ ∃ id ∈ ids items, Between items source target id)) := by
  obtain ⟨leaving, hleaving⟩ : ∃ leaving, findItem source items = some leaving := by
    obtain ⟨leaving, hmem, rfl⟩ := List.mem_map.mp hsource
    exact ⟨leaving, findItem_of_mem hdistinct hmem⟩
  have hfold : foldInto now items source target = _ := foldInto_eq hdistinct hne hleaving htarget
  have hgraph : DependsOn (mergedItems now items source target leaving)
      = MergedDependsOn items source target := by
    funext a b
    exact propext (dependsOn_mergedItems hdistinct hne hleaving htarget)
  have hmerged : (ids (mergedItems now items source target leaving)).Nodup :=
    nodup_ids_mergedItems hdistinct
  have hcycle : (∃ cycle, cycleThrough? (mergedItems now items source target leaving) target = some cycle)
      ↔ DependsOn items target target ∨ ∃ id ∈ ids items, Between items source target id := by
    rw [cycleThrough?_isSome_iff hmerged, Reaches, hgraph]
    exact merged_cycle_iff hne
  refine ⟨mergedItems now items source target leaving, hgraph, ?_⟩
  cases hsearch : cycleThrough? (mergedItems now items source target leaving) target with
  | some cycle =>
    rw [hsearch] at hfold hcycle
    obtain ⟨between, hends, -, hchain⟩ := ((cycleSearch_iff hmerged).mpr hsearch).simple_chain hmerged
    exact .inl ⟨cycle, hfold, ⟨between, hends⟩, hgraph ▸ hchain, hcycle.mp ⟨cycle, rfl⟩⟩
  | none =>
    rw [hsearch] at hfold hcycle
    refine .inr ⟨⟨_, hfold⟩, fun h => ?_⟩
    obtain ⟨cycle, hcycle⟩ := hcycle.mpr h
    cases hcycle

/-- A merge of two items that are there is refused for a cycle exactly if the target depends on itself
    or a third item lies between the two; that they depend on each other is no reason.  The cycle named is
    one of the merged graph through the target.  A graph without cycles stays one. -/
theorem cycle_iff_between (hdistinct : (ids items).Nodup) (hsource : source ∈ ids items)
    (htarget : target ∈ ids items) (hne : source ≠ target) :
    ((∃ id cycle, foldInto now items source target = .error (.dependencyCycle id cycle)) ↔
      DependsOn items target target ∨ ∃ id ∈ ids items, Between items source target id) ∧
    ((∀ id, DependsOn items source id ∨ DependsOn items target id → id = source ∨ id = target) →
      ¬ DependsOn items target target →
      ∃ retired after, foldInto now items source target = .ok (retired, after)) ∧
    (∀ id cycle, foldInto now items source target = .error (.dependencyCycle id cycle) →
      id = target ∧ (∃ between, cycle = target :: between ++ [target]) ∧
      cycle.IsChain (MergedDependsOn items source target)) ∧
    (∀ retired after, foldInto now items source target = .ok (retired, after) →
      (∀ a b, DependsOn after a b ↔ MergedDependsOn items source target a b) ∧
      (Acyclic items → Acyclic after)) := by
  obtain ⟨merged, hgraph, hmerge⟩ := @refused_or_merged now _ _ _ hdistinct hsource htarget hne
  rcases hmerge with ⟨cycle, hfold, hends, hchain, hcyclic⟩ | ⟨⟨retired, hfold⟩, hnone⟩
  · refine ⟨⟨fun _ => hcyclic, fun _ => ⟨target, cycle, hfold⟩⟩, ?_, ?_, ?_⟩
    · intro hclosed hself
      rcases hcyclic with hedge | ⟨id, -, hbetween⟩
      · exact absurd hedge hself
      · exact absurd hbetween (not_between_of_closed hclosed)
    · intro id cycle' h
      rw [hfold] at h
      cases h
      exact ⟨rfl, hends, hchain⟩
    · intro retired after h
      rw [hfold] at h
      cases h
  · refine ⟨⟨?_, fun h => absurd h hnone⟩, fun _ _ => ⟨retired, merged, hfold⟩, ?_, ?_⟩
    · rintro ⟨id, cycle, h⟩
      rw [hfold] at h
      cases h
    · intro id cycle h
      rw [hfold] at h
      cases h
    · intro retired' after h
      rw [hfold] at h
      cases h
      refine ⟨fun a b => by rw [hgraph], fun hacyclic id hcycle => ?_⟩
      rw [Reaches, hgraph] at hcycle
      exact acyclic_of_merged hacyclic (fun h => hnone ((merged_cycle_iff hne).mp h)) id hcycle

/-- Two items that depend on each other, and a third on the way from one to the other. -/
def loopSample : List Item :=
  [dependent "WRK-1" ["WRK-2"], dependent "WRK-2" ["WRK-1", "WRK-3"], dependent "WRK-3" ["WRK-1"]]

/-- Merging the two is refused for the third item, and merging two others that depend on each other is
    not. -/
theorem cycle_iff_between_loop :
    (ids loopSample).Nodup ∧ "WRK-2" ∈ ids loopSample ∧ "WRK-1" ∈ ids loopSample ∧
    (∃ between, foldInto ⟨1, 0⟩ loopSample "WRK-2" "WRK-1"
      = .error (.dependencyCycle "WRK-1" ("WRK-1" :: between ++ ["WRK-1"]))) ∧
    ∃ retired after, foldInto ⟨1, 0⟩ tangledSample "WRK-2" "WRK-1" = .ok (retired, after) := by
  have hdistinct : (ids loopSample).Nodup := by decide
  have hsource : "WRK-2" ∈ ids loopSample := by decide
  have htarget : "WRK-1" ∈ ids loopSample := by decide
  refine ⟨hdistinct, hsource, htarget, ?_, ?_⟩
  · obtain ⟨hiff, -, hcycle, -⟩ :=
      @cycle_iff_between ⟨1, 0⟩ _ _ _ hdistinct hsource htarget (by decide)
    have hfrom : DependsOn loopSample "WRK-2" "WRK-3" := by decide
    have hto : DependsOn loopSample "WRK-3" "WRK-1" := by decide
    obtain ⟨id, cycle, herror⟩ := hiff.mpr (.inr ⟨"WRK-3", by decide, by decide, by decide,
      .inl (.single hfrom), .inr (.single hto)⟩)
    obtain ⟨rfl, ⟨between, rfl⟩, -⟩ := hcycle id cycle herror
    exact ⟨between, herror⟩
  · refine (cycle_iff_between (by decide) (by decide) (by decide) (by decide)).2.1 ?_ (by decide)
    have hpairs : ∀ id ∈ ids tangledSample,
        DependsOn tangledSample "WRK-2" id ∨ DependsOn tangledSample "WRK-1" id →
        id = "WRK-2" ∨ id = "WRK-1" := by
      decide
    exact fun id h => hpairs id (h.elim DependsOn.right_mem DependsOn.right_mem) h

end Backlog
