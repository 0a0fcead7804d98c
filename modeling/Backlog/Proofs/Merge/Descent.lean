/-
  The rules of the search for a cycle, and the program that goes by them.

  Program: `walk` goes through dependencies with a bound on how deep it may go, and `cycleThrough?` gives
  it the number of items for one.

  Specification: the rules of the search know no bound (`Descent`).  In every graph they lead to one end
  and no other, and that is what the program finds (`cycleSearch_iff`): the search ends, and the bound
  never decides.

  A derivation by the rules has a part for each nested search and a part for the search that goes on
  behind it, so it is what inductions are on from here on.  Each step of the program is said once
  (`walk_home`, `walk_passed`, `walk_into`).  A nested search has one item fewer to visit
  (`exists_depth`), which is why the bound is deep enough.
-/
import Mathlib.Data.List.Nodup
import Backlog.Proofs.ActiveSet

namespace Backlog

variable {items : List Item} {start : String}

/-! ## Looking up dependencies -/

/-- Where IDs are distinct, the dependencies looked up are those of the one item with the ID. -/
theorem dependenciesOf?_eq_some_iff (hdistinct : (ids items).Nodup) {id : String}
    {dependencies : List String} :
    dependenciesOf? items id = some dependencies ↔
      ∃ item ∈ items, item.id = id ∧ item.dependencies = dependencies := by
  have hreverse : (ids items.reverse).Nodup := by
    rw [ids, List.map_reverse]
    exact List.nodup_reverse.mpr hdistinct
  rw [dependenciesOf?, Option.map_eq_some_iff]
  constructor
  · rintro ⟨item, hfound, hdependencies⟩
    exact ⟨item, List.mem_reverse.mp (List.mem_of_find?_eq_some hfound), id_of_findItem hfound,
      hdependencies⟩
  · rintro ⟨item, hitem, rfl, hdependencies⟩
    exact ⟨item, findItem_of_mem hreverse (List.mem_reverse.mpr hitem), hdependencies⟩

theorem dependenciesOf?_isSome_iff (hdistinct : (ids items).Nodup) {id : String} :
    (∃ dependencies, dependenciesOf? items id = some dependencies) ↔ id ∈ ids items := by
  simp only [dependenciesOf?_eq_some_iff hdistinct, ids, List.mem_map]
  constructor
  · rintro ⟨-, item, hitem, hid, -⟩
    exact ⟨item, hitem, hid⟩
  · rintro ⟨item, hitem, hid⟩
    exact ⟨item.dependencies, item, hitem, hid, rfl⟩

/-! ## The rules of the search -/

/-- How a search through dependencies goes: what it finds, and what was visited by then. -/
inductive Descent (items : List Item) (start : String) :
    List String → List String → Option (List String) → List String → Prop where
  /-- No dependency is left. -/
  | done (visited : List String) : Descent items start [] visited none visited
  /-- The dependency is the start. -/
  | home (rest visited : List String) :
      Descent items start (start :: rest) visited (some [start]) visited
  /-- No item has the ID, or it was visited before. -/
  | passed {id : String} {rest visited seen : List String} {path : Option (List String)} :
      id ≠ start → dependenciesOf? items id = none ∨ id ∈ visited →
      Descent items start rest visited path seen → Descent items start (id :: rest) visited path seen
  /-- The item is visited, and its dependencies lead to the start. -/
  | found {id : String} {rest visited seen further path : List String} :
      id ≠ start → dependenciesOf? items id = some further → id ∉ visited →
      Descent items start further (id :: visited) (some path) seen →
      Descent items start (id :: rest) visited (some (id :: path)) seen
  /-- The item is visited for nothing, and the search goes on behind it. -/
  | back {id : String} {rest visited between seen further : List String}
      {path : Option (List String)} :
      id ≠ start → dependenciesOf? items id = some further → id ∉ visited →
      Descent items start further (id :: visited) none between →
      Descent items start rest between path seen → Descent items start (id :: rest) visited path seen

/-- How a search for a cycle through an item goes. -/
inductive CycleSearch (items : List Item) (start : String) : Option (List String) → Prop where
  /-- The item is not there. -/
  | absent : dependenciesOf? items start = none → CycleSearch items start none
  | through {dependencies seen : List String} {path : Option (List String)} :
      dependenciesOf? items start = some dependencies →
      Descent items start dependencies [] path seen →
      CycleSearch items start (path.map (start :: ·))

namespace Descent

variable {dependencies visited seen : List String} {path : Option (List String)}

/-- Whatever was visited stays visited. -/
theorem grows (h : Descent items start dependencies visited path seen) : visited ⊆ seen := by
  induction h with
  | done visited => exact List.Subset.refl visited
  | home rest visited => exact List.Subset.refl visited
  | passed _ _ _ ih => exact ih
  | found _ _ _ _ ih => exact List.subset_of_cons_subset ih
  | back _ _ _ _ _ ih ih' => exact List.Subset.trans (List.subset_of_cons_subset ih) ih'

end Descent

/-! ## Items to visit -/

/-- How many items there are still to visit. -/
def unvisited (items : List Item) (visited : List String) : Nat :=
  (ids items).countP fun id => id ∉ visited

theorem unvisited_mono {visited seen : List String} (h : visited ⊆ seen) :
    unvisited items seen ≤ unvisited items visited :=
  List.countP_mono_left fun id _ hnot => by
    have hnot : id ∉ seen := of_decide_eq_true hnot
    exact decide_eq_true fun hid => hnot (h hid)

theorem unvisited_cons_lt {visited : List String} {id : String} (hthere : id ∈ ids items)
    (hnew : id ∉ visited) : unvisited items (id :: visited) < unvisited items visited := by
  obtain ⟨before, behind, hsplit⟩ := List.append_of_mem hthere
  have hmono : ∀ xs : List String,
      (xs.countP fun x => x ∉ id :: visited) ≤ xs.countP fun x => x ∉ visited :=
    fun xs => List.countP_mono_left fun x _ hnot => by
      have hnot : x ∉ id :: visited := of_decide_eq_true hnot
      exact decide_eq_true fun hx => hnot (List.mem_cons_of_mem _ hx)
  have hbefore := hmono before
  have hbehind := hmono behind
  rw [unvisited, unvisited, hsplit, List.countP_append, List.countP_append,
    List.countP_cons_of_neg (by simp), List.countP_cons_of_pos (by simpa using hnew)]
  omega

/-- As long as there is an item to visit, the search may go deeper by one. -/
theorem exists_depth (hdistinct : (ids items).Nodup) {depth : Nat} {id : String}
    {visited further : List String} (hfurther : dependenciesOf? items id = some further)
    (hnew : id ∉ visited) (hdepth : unvisited items visited ≤ depth) :
    ∃ less, depth = less + 1 ∧ unvisited items (id :: visited) ≤ less := by
  have hthere : id ∈ ids items := (dependenciesOf?_isSome_iff hdistinct).mp ⟨_, hfurther⟩
  have hfewer := unvisited_cons_lt hthere hnew
  exact ⟨depth - 1, by omega, by omega⟩

theorem unvisited_nil_le (items : List Item) : unvisited items [] ≤ items.length :=
  Nat.le_trans List.countP_le_length (Nat.le_of_eq (List.length_map _))

/-! ## The program goes by the rules -/

section

variable {depth : Nat} {id : String} {rest visited further : List String}

theorem walk_home (rest visited : List String) :
    walk items start (depth + 1) (start :: rest) visited = (some [start], visited) := by
  rw [walk, firstResult, if_pos rfl]

theorem walk_passed (hne : id ≠ start) (hpassed : dependenciesOf? items id = none ∨ id ∈ visited) :
    walk items start (depth + 1) (id :: rest) visited
      = walk items start (depth + 1) rest visited := by
  rw [walk, firstResult, if_neg hne]
  rcases hpassed with hnone | hvisited
  · rw [hnone, walk]
  · cases dependenciesOf? items id with
    | none => rw [walk]
    | some further =>
      simp only [List.contains_iff_mem.mpr hvisited, if_true]
      rw [walk]

theorem walk_into (hne : id ≠ start) (hfurther : dependenciesOf? items id = some further)
    (hnew : id ∉ visited) :
    walk items start (depth + 1) (id :: rest) visited
      = match walk items start depth further (id :: visited) with
        | (some path, seen) => (some (id :: path), seen)
        | (none, between) => walk items start (depth + 1) rest between := by
  have hfree : ¬ visited.contains id = true := mt List.contains_iff_mem.mp hnew
  rw [walk, firstResult, if_neg hne, hfurther]
  simp only [if_neg hfree]
  cases walk items start depth further (id :: visited) with
  | mk path seen =>
    cases path with
    | some path => rfl
    | none => rfl

end

/-- Where the rules lead, the program comes to, if it may go deep enough. -/
theorem Descent.walk_eq {dependencies visited seen : List String} {path : Option (List String)}
    (hdistinct : (ids items).Nodup) (h : Descent items start dependencies visited path seen)
    {depth : Nat} (hdepth : unvisited items visited ≤ depth) :
    walk items start (depth + 1) dependencies visited = (path, seen) := by
  induction h generalizing depth with
  | done visited => rfl
  | home rest visited => exact walk_home rest visited
  | passed hne hpassed _ ih =>
    rw [walk_passed hne hpassed]
    exact ih hdepth
  | found hne hfurther hnew _ ih =>
    obtain ⟨less, rfl, hless⟩ := exists_depth hdistinct hfurther hnew hdepth
    rw [walk_into hne hfurther hnew, ih hless]
  | @back id rest visited between seen further path hne hfurther hnew hvisited _ ih ih' =>
    have hleft : unvisited items between ≤ unvisited items visited :=
      unvisited_mono (List.subset_of_cons_subset hvisited.grows)
    obtain ⟨less, rfl, hless⟩ := exists_depth hdistinct hfurther hnew hdepth
    rw [walk_into hne hfurther hnew, ih hless]
    exact ih' (Nat.le_trans hleft hdepth)

/-- And the rules always lead there. -/
theorem descent_walk (hdistinct : (ids items).Nodup) {depth : Nat} {dependencies visited : List String}
    (hdepth : unvisited items visited ≤ depth) :
    Descent items start dependencies visited (walk items start (depth + 1) dependencies visited).1
      (walk items start (depth + 1) dependencies visited).2 := by
  induction depth using Nat.strongRecOn generalizing dependencies visited with
  | ind depth ih =>
    induction dependencies generalizing visited with
    | nil => exact .done visited
    | cons id rest ihrest =>
      by_cases hne : id = start
      · subst hne
        rw [walk_home]
        exact .home rest visited
      · by_cases hpassed : dependenciesOf? items id = none ∨ id ∈ visited
        · rw [walk_passed hne hpassed]
          exact .passed hne hpassed (ihrest hdepth)
        · obtain ⟨hthere, hnew⟩ := not_or.mp hpassed
          obtain ⟨further, hfurther⟩ := Option.ne_none_iff_exists'.mp hthere
          obtain ⟨less, rfl, hless⟩ := exists_depth hdistinct hfurther hnew hdepth
          have hinto : Descent items start further (id :: visited) _ _ :=
            ih less (Nat.lt_succ_self less) hless
          rw [walk_into hne hfurther hnew]
          cases hwalk : walk items start (less + 1) further (id :: visited) with
          | mk path between =>
            rw [hwalk] at hinto
            cases path with
            | some path => exact .found hne hfurther hnew hinto
            | none =>
              have hleft : unvisited items between ≤ unvisited items visited :=
                unvisited_mono (List.subset_of_cons_subset hinto.grows)
              exact .back hne hfurther hnew hinto (ihrest (Nat.le_trans hleft hdepth))

theorem cycleThrough?_of_dependencies {dependencies : List String}
    (h : dependenciesOf? items start = some dependencies) :
    cycleThrough? items start
      = (walk items start (items.length + 1) dependencies []).1.map (start :: ·) := by
  show (dependenciesOf? items start).bind _ = _
  rw [h, Option.bind_some]
  cases (walk items start (items.length + 1) dependencies []).1 <;> rfl

/-- A search for a cycle comes to one end, and the program to the same. -/
theorem cycleSearch_iff (hdistinct : (ids items).Nodup) {result : Option (List String)} :
    CycleSearch items start result ↔ cycleThrough? items start = result := by
  have hdepth := unvisited_nil_le items
  constructor
  · intro h
    cases h with
    | absent hnone =>
      rw [cycleThrough?, hnone]
      rfl
    | through hdependencies hdescent =>
      rw [cycleThrough?_of_dependencies hdependencies, hdescent.walk_eq hdistinct hdepth]
  · rintro rfl
    cases hdependencies : dependenciesOf? items start with
    | none =>
      have hresult : cycleThrough? items start = none := by
        rw [cycleThrough?, hdependencies]
        rfl
      rw [hresult]
      exact .absent hdependencies
    | some dependencies =>
      rw [cycleThrough?_of_dependencies hdependencies]
      exact .through hdependencies (descent_walk hdistinct hdepth)

end Backlog
