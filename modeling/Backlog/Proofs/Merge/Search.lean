/-
  Cycles of dependencies, and the search for them.

  Program: `cycleThrough?` searches depth first from an item.  What was visited once is not entered
  again, and the depth is bounded by the number of items.

  Specification: the dependencies between items that are there make a graph (`DependsOn`).  The search
  always ends.  What it finds is a path in the graph from the item back to itself, in which no ID comes
  twice, and it finds one if there is one (`search_exact`).

  The crux is what a search that finds nothing leaves behind (`Explored`): of all that was visited on
  the way, every dependency that is there has been visited too, and none of them is the start.  So no
  path from there leads to the start, however it winds.  All of this is by induction on the rules of the
  search, which know no bound on the depth.
-/
import Mathlib.Data.List.Chain
import Mathlib.Logic.Relation
import Backlog.Proofs.Merge.Descent

namespace Backlog

variable {items : List Item} {start : String}

/-! ## The graph of dependencies -/

/-- The item with the first ID depends on the one with the second, and both are there. -/
def DependsOn (items : List Item) (a b : String) : Prop :=
  ∃ item ∈ items, item.id = a ∧ b ∈ item.dependencies ∧ b ∈ ids items

instance (items : List Item) (a b : String) : Decidable (DependsOn items a b) :=
  inferInstanceAs (Decidable (∃ item ∈ items, item.id = a ∧ b ∈ item.dependencies ∧ b ∈ ids items))

/-- From the item with the first ID, one dependency after the other leads to the second. -/
def Reaches (items : List Item) : String → String → Prop := Relation.TransGen (DependsOn items)

/-- No item depends on itself, be it through others. -/
def Acyclic (items : List Item) : Prop := ∀ id, ¬ Reaches items id id

theorem DependsOn.left_mem {a b : String} (h : DependsOn items a b) : a ∈ ids items := by
  obtain ⟨item, hitem, rfl, -⟩ := h
  exact List.mem_map_of_mem hitem

theorem DependsOn.right_mem {a b : String} (h : DependsOn items a b) : b ∈ ids items := by
  obtain ⟨-, -, -, -, hb⟩ := h
  exact hb

theorem dependsOn_iff (hdistinct : (ids items).Nodup) {a b : String} {dependencies : List String}
    (ha : dependenciesOf? items a = some dependencies) :
    DependsOn items a b ↔ b ∈ dependencies ∧ b ∈ ids items := by
  obtain ⟨item, hitem, hid, rfl⟩ := (dependenciesOf?_eq_some_iff hdistinct).mp ha
  constructor
  · rintro ⟨other, hother, hid', hb, hthere⟩
    have hsame : dependenciesOf? items a = some other.dependencies :=
      (dependenciesOf?_eq_some_iff hdistinct).mpr ⟨other, hother, hid', rfl⟩
    have hdependencies : item.dependencies = other.dependencies := Option.some.inj (ha.symm.trans hsame)
    rw [hdependencies]
    exact ⟨hb, hthere⟩
  · rintro ⟨hb, hthere⟩
    exact ⟨item, hitem, hid, hb, hthere⟩

/-! ## What is found -/

namespace Descent

variable {dependencies visited seen : List String}

/-- A path that is found ends at the start.  Before that no ID comes twice, none is the start, and none
    was visited before. -/
theorem simple {found : List String}
    (h : Descent items start dependencies visited (some found) seen) :
    ∃ between, found = between ++ [start] ∧ (start :: between).Nodup ∧
      ∀ id ∈ between, id ∉ visited := by
  generalize hpath : some found = path at h
  induction h generalizing found with
  | done visited => cases hpath
  | home rest visited =>
    cases hpath
    exact ⟨[], rfl, List.nodup_singleton start, by simp⟩
  | passed _ _ _ ih => exact ih hpath
  | @found id rest visited seen further path hne _ hnew _ ih =>
    cases hpath
    obtain ⟨between, rfl, hnodup, hclear⟩ := ih rfl
    obtain ⟨hstart, hbetween⟩ := List.nodup_cons.mp hnodup
    have hid : id ∉ between := fun hmem => hclear id hmem List.mem_cons_self
    refine ⟨id :: between, rfl, ?_, ?_⟩
    · refine List.nodup_cons.mpr ⟨?_, List.nodup_cons.mpr ⟨hid, hbetween⟩⟩
      rw [List.mem_cons, not_or]
      exact ⟨Ne.symm hne, hstart⟩
    · intro other hother
      rcases List.mem_cons.mp hother with rfl | hother
      · exact hnew
      · exact fun hmem => hclear other hother (List.mem_cons_of_mem id hmem)
  | @back id rest visited between seen further path _ _ _ hvisited _ _ ih =>
    obtain ⟨way, hway, hnodup, hclear⟩ := ih hpath
    refine ⟨way, hway, hnodup, ?_⟩
    intro other hother hmem
    exact hclear other hother (hvisited.grows (List.mem_cons_of_mem id hmem))

/-- In a path that is found from an item's dependencies, with the item in front, each ID is a dependency of
    the one before. -/
theorem chain {a : String} {path : List String} (hdistinct : (ids items).Nodup)
    (hstart : start ∈ ids items) (h : Descent items start dependencies visited (some path) seen)
    (ha : ∀ d ∈ dependencies, d ∈ ids items → DependsOn items a d) :
    (a :: path).IsChain (DependsOn items) := by
  generalize hpath : some path = result at h
  induction h generalizing a path with
  | done visited => cases hpath
  | home rest visited =>
    cases hpath
    exact List.isChain_pair.mpr (ha start List.mem_cons_self hstart)
  | passed _ _ _ ih => exact ih (fun d hd => ha d (List.mem_cons_of_mem _ hd)) hpath
  | @found id rest visited seen further path _ hfurther _ _ ih =>
    cases hpath
    have hthere : id ∈ ids items := (dependenciesOf?_isSome_iff hdistinct).mp ⟨_, hfurther⟩
    refine List.isChain_cons_cons.mpr ⟨ha id List.mem_cons_self hthere, ih ?_ rfl⟩
    intro d hd hdthere
    exact (dependsOn_iff hdistinct hfurther).mpr ⟨hd, hdthere⟩
  | back _ _ _ _ _ _ ih => exact ih (fun d hd => ha d (List.mem_cons_of_mem _ hd)) hpath

end Descent

/-! ## What a search leaves behind that finds nothing -/

/-- An ID that leads nowhere any more: it is not the start, and if an item has it, it was visited. -/
def Cleared (items : List Item) (start : String) (seen : List String) (id : String) : Prop :=
  id ≠ start ∧ (id ∈ ids items → id ∈ seen)

/-- Whatever was visited since leads nowhere but to what was visited. -/
structure Explored (items : List Item) (start : String) (visited seen : List String) : Prop where
  grows : visited ⊆ seen
  clears : ∀ id ∈ seen, id ∉ visited → ∀ d, DependsOn items id d → Cleared items start seen d

theorem Cleared.mono {seen later : List String} {id : String} (hseen : seen ⊆ later)
    (h : Cleared items start seen id) : Cleared items start later id :=
  ⟨h.1, fun hthere => hseen (h.2 hthere)⟩

theorem Explored.refl (visited : List String) : Explored items start visited visited where
  grows := fun _ h => h
  clears := fun _ h hnot => absurd h hnot

theorem Explored.trans {visited seen later : List String} (h : Explored items start visited seen)
    (h' : Explored items start seen later) : Explored items start visited later where
  grows := fun _ hid => h'.grows (h.grows hid)
  clears := by
    intro id hid hnot d hd
    by_cases hseen : id ∈ seen
    · exact (h.clears id hseen hnot d hd).mono h'.grows
    · exact h'.clears id hid hseen d hd

/-- A search that finds nothing has explored everything that it could come to. -/
theorem Descent.explored {dependencies visited seen : List String} (hdistinct : (ids items).Nodup)
    (h : Descent items start dependencies visited none seen) :
    Explored items start visited seen ∧ ∀ d ∈ dependencies, Cleared items start seen d := by
  generalize hpath : none = result at h
  induction h with
  | done visited => exact ⟨.refl visited, by simp⟩
  | home rest visited => cases hpath
  | found => cases hpath
  | @passed id rest visited seen path hne hpassed hrest ih =>
    obtain ⟨hexplored, hcleared⟩ := ih hpath
    refine ⟨hexplored, List.forall_mem_cons.mpr ⟨⟨hne, ?_⟩, hcleared⟩⟩
    intro hthere
    rcases hpassed with hnone | hvisited
    · obtain ⟨further, hfurther⟩ := (dependenciesOf?_isSome_iff hdistinct).mpr hthere
      rw [hnone] at hfurther
      cases hfurther
    · exact hrest.grows hvisited
  | @back id rest visited between seen further path hne hfurther hnew hinto hbehind ih ih' =>
    obtain ⟨hexplored, hcleared⟩ := ih rfl
    obtain ⟨hexplored', hcleared'⟩ := ih' hpath
    have hid : id ∈ between := hinto.grows List.mem_cons_self
    -- with the item itself, what the nested search explored is explored from outside
    have hnested : Explored items start visited between := by
      refine ⟨List.subset_of_cons_subset hexplored.grows, ?_⟩
      intro v hv hnot d hd
      by_cases hsame : v = id
      · subst hsame
        exact hcleared d ((dependsOn_iff hdistinct hfurther).mp hd).1
      · exact hexplored.clears v hv (by simp [hsame, hnot]) d hd
    exact ⟨hnested.trans hexplored',
      List.forall_mem_cons.mpr ⟨⟨hne, fun _ => hexplored'.grows hid⟩, hcleared'⟩⟩

/-! ## The search as a whole -/

/-- A path of dependencies leads from its first ID to its last. -/
theorem reaches_of_isChain {a b : String} {between : List String}
    (h : (a :: between ++ [b]).IsChain (DependsOn items)) : Reaches items a b := by
  induction between generalizing a with
  | nil => exact .single (List.isChain_pair.mp h)
  | cons c rest ih =>
    obtain ⟨hedge, hrest⟩ := List.isChain_cons_cons.mp h
    exact .head hedge (ih hrest)

/-- From what is explored, no path leads to the start. -/
theorem Explored.not_reaches {seen : List String} (h : Explored items start [] seen) {a : String}
    (ha : a ∈ seen) : ¬ Reaches items a start := by
  intro hreaches
  induction hreaches using Relation.TransGen.head_induction_on with
  | single hedge => exact (h.clears _ ha List.not_mem_nil _ hedge).1 rfl
  | head hedge _ ih => exact ih ((h.clears _ ha List.not_mem_nil _ hedge).2 hedge.right_mem)

/-- What is found begins and ends with the start and has no ID twice in between, and each ID on it is a
    dependency of the one before. -/
theorem CycleSearch.simple_chain {cycle : List String} (hdistinct : (ids items).Nodup)
    (h : CycleSearch items start (some cycle)) :
    ∃ between, cycle = start :: between ++ [start] ∧ (start :: between).Nodup ∧
      cycle.IsChain (DependsOn items) := by
  generalize hcycle : some cycle = result at h
  cases h with
  | absent _ => cases hcycle
  | through hdependencies hdescent =>
    obtain ⟨path, rfl, rfl⟩ := Option.map_eq_some_iff.mp hcycle.symm
    obtain ⟨between, rfl, hnodup, -⟩ := hdescent.simple
    have hthere : start ∈ ids items := (dependenciesOf?_isSome_iff hdistinct).mp ⟨_, hdependencies⟩
    have hchain := hdescent.chain hdistinct hthere fun d hd hdthere =>
      (dependsOn_iff hdistinct hdependencies).mpr ⟨hd, hdthere⟩
    exact ⟨between, rfl, hnodup, hchain⟩

/-- After a search that finds nothing there is no way back. -/
theorem CycleSearch.not_reaches (hdistinct : (ids items).Nodup) (h : CycleSearch items start none) :
    ¬ Reaches items start start := by
  intro hreaches
  obtain ⟨b, hfirst, hrest⟩ := Relation.TransGen.head'_iff.mp hreaches
  generalize hnone : none = result at h
  cases h with
  | absent habsent =>
    obtain ⟨dependencies, hdependencies⟩ :=
      (dependenciesOf?_isSome_iff hdistinct).mpr hfirst.left_mem
    rw [habsent] at hdependencies
    cases hdependencies
  | through hdependencies hdescent =>
    rw [Option.map_eq_none_iff.mp hnone.symm] at hdescent
    obtain ⟨hexplored, hcleared⟩ := hdescent.explored hdistinct
    have hb := hcleared b ((dependsOn_iff hdistinct hdependencies).mp hfirst).1
    rcases Relation.reflTransGen_iff_eq_or_transGen.mp hrest with heq | hrest
    · exact hb.1 heq.symm
    · exact hexplored.not_reaches (hb.2 hfirst.right_mem) hrest

/-- The search finds a cycle through an item if and only if there is one. -/
theorem cycleThrough?_isSome_iff (hdistinct : (ids items).Nodup) :
    (∃ cycle, cycleThrough? items start = some cycle) ↔ Reaches items start start := by
  constructor
  · rintro ⟨cycle, hcycle⟩
    obtain ⟨between, rfl, -, hchain⟩ := ((cycleSearch_iff hdistinct).mpr hcycle).simple_chain hdistinct
    exact reaches_of_isChain hchain
  · intro hreaches
    apply Option.ne_none_iff_exists'.mp
    intro hnone
    exact ((cycleSearch_iff hdistinct).mpr hnone).not_reaches hdistinct hreaches

/-- In every graph the search ends, in one way alone, and so does the program.  It finds something
    exactly if the item is there and depends on itself, be it through others.  That begins and ends with
    the item, has no ID twice in between, and each ID on it is a dependency of the one before. -/
theorem search_exact (hdistinct : (ids items).Nodup) :
    (∃ result, CycleSearch items start result) ∧
    (∀ result, CycleSearch items start result ↔ cycleThrough? items start = result) ∧
    ((∃ cycle, cycleThrough? items start = some cycle) ↔
      start ∈ ids items ∧ Reaches items start start) ∧
    ∀ cycle, cycleThrough? items start = some cycle →
      ∃ between, cycle = start :: between ++ [start] ∧ (start :: between).Nodup ∧
        cycle.IsChain (DependsOn items) := by
  have hends : ∀ result, CycleSearch items start result ↔ cycleThrough? items start = result :=
    fun _ => cycleSearch_iff hdistinct
  refine ⟨⟨_, (hends _).mpr rfl⟩, hends, ?_, ?_⟩
  · rw [cycleThrough?_isSome_iff hdistinct]
    constructor
    · intro hreaches
      obtain ⟨_, hfirst, -⟩ := Relation.TransGen.head'_iff.mp hreaches
      exact ⟨hfirst.left_mem, hreaches⟩
    · exact And.right
  · intro cycle hcycle
    exact ((hends _).mpr hcycle).simple_chain hdistinct

/-- A loop that does not lead back, a dependency named twice, and one that is not there. -/
def mazeSample : List Item :=
  [dependent "WRK-1" ["WRK-2", "WRK-4", "WRK-4"], dependent "WRK-2" ["WRK-3", "GONE-1"],
    dependent "WRK-3" ["WRK-2", "WRK-3"], dependent "WRK-4" ["WRK-3", "WRK-1"]]

/-- The search turns back from the loop and finds the other way; through an ID that no item has there is
    none. -/
theorem search_exact_maze :
    (ids mazeSample).Nodup ∧ CycleSearch mazeSample "WRK-1" (some ["WRK-1", "WRK-4", "WRK-1"]) ∧
    Reaches mazeSample "WRK-1" "WRK-1" ∧ CycleSearch mazeSample "GONE-1" none := by
  have hdistinct : (ids mazeSample).Nodup := by decide
  have hfound : cycleThrough? mazeSample "WRK-1" = some ["WRK-1", "WRK-4", "WRK-1"] := by decide
  obtain ⟨-, hends, hiff, -⟩ := @search_exact mazeSample "WRK-1" hdistinct
  obtain ⟨-, hends', -, -⟩ := @search_exact mazeSample "GONE-1" hdistinct
  exact ⟨hdistinct, (hends _).mpr hfound, (hiff.mp ⟨_, hfound⟩).2, (hends' _).mpr (by decide)⟩

end Backlog
