/-
  What a dictionary holds, told entry by entry.

  Program: a dictionary is the list of its entries in key order.

  Specification: its entries are the answers of `get?` and no others (`mem_entries_iff`), each key once
  (`nodup_keys`).  So whatever is counted over a dictionary may be counted over any list that names
  each of its keys once (`size_eq_of_perm`, `countP_values`).
-/
import Backlog.Dict
import Mathlib.Data.List.Dedup

namespace Backlog

theorem lookupEntry_eq_some_iff {α : Type} {key : String} {value : α} {entries : List (String × α)}
    (hincreasing : IncreasingKeys entries) :
    lookupEntry key entries = some value ↔ (key, value) ∈ entries := by
  induction entries with
  | nil => simp [lookupEntry]
  | cons first rest ih =>
    obtain ⟨k, v⟩ := first
    obtain ⟨hbehind, hrest⟩ := List.pairwise_cons.mp hincreasing
    rw [lookupEntry, List.mem_cons, Prod.mk.injEq]
    split
    · next hkey =>
      subst hkey
      -- the key is smaller than all behind it
      have hnot : (key, value) ∉ rest := fun h => String.lt_irrefl key (hbehind _ h)
      simp [hnot, eq_comm]
    · next hkey => simp [hkey, ih hrest]

namespace Dict

variable {α : Type} {d : Dict α} {key : String} {value : α}

/-! ## Entries and keys -/

theorem mem_entries_iff : (key, value) ∈ d.entries ↔ d.get? key = some value :=
  (lookupEntry_eq_some_iff d.increasing).symm

theorem nodup_keys (d : Dict α) : d.keys.Nodup := by
  rw [keys, List.nodup_iff_pairwise_ne, List.pairwise_map]
  refine d.increasing.imp fun {a b} hlt heq => ?_
  exact String.lt_irrefl a.1 (heq ▸ hlt)

theorem mem_keys_iff : key ∈ d.keys ↔ d.contains key = true := by
  rw [contains_iff, keys, List.mem_map]
  constructor
  · rintro ⟨⟨k, v⟩, hmem, rfl⟩
    exact ⟨v, mem_entries_iff.mp hmem⟩
  · rintro ⟨v, hget⟩
    exact ⟨(key, v), mem_entries_iff.mpr hget, rfl⟩

/-! ## Counting -/

theorem size_eq_of_perm {names : List String} (h : d.keys.Perm names) : d.size = names.length := by
  rw [← h.length_eq, keys, List.length_map, size]

/-- The values of a kind are as many as the keys whose value is of that kind. -/
theorem countP_values (p : α → Bool) {names : List String} (h : d.keys.Perm names) :
    d.values.countP p = names.countP fun name => (d.get? name).any p := by
  rw [← h.countP_eq, values, keys, List.countP_map, List.countP_map]
  refine List.countP_congr fun ⟨k, v⟩ hmem => ?_
  simp [mem_entries_iff.mp hmem]

/-! ## Dictionaries made of a list of keys -/

/-- Of keys whose values a function tells, a dictionary has those that were put in. -/
theorem get?_foldl_insert (f : String → Option α) (names : List String) (d : Dict α) (key : String) :
    ((names.filterMap fun name => (f name).map (name, ·)).foldl
        (fun d e => d.insert e.1 e.2) d).get? key
      = (if key ∈ names then f key else none).or (d.get? key) := by
  induction names generalizing d with
  | nil => simp
  | cons name rest ih =>
    cases hname : f name with
    | none =>
      rw [List.filterMap_cons_none (by rw [hname]; rfl), ih]
      by_cases hkey : key = name
      · subst hkey
        simp [hname]
      · simp [hkey]
    | some value =>
      rw [List.filterMap_cons_some (by rw [hname]; rfl), List.foldl_cons, ih, get?_insert]
      by_cases hkey : key = name
      · subst hkey
        by_cases hrest : key ∈ rest <;> simp [hname, hrest]
      · simp [hkey]

theorem get?_ofList (f : String → Option α) (names : List String) (key : String) :
    (ofList (names.filterMap fun name => (f name).map (name, ·))).get? key
      = if key ∈ names then f key else none := by
  rw [ofList, get?_foldl_insert, get?_empty, Option.or_none]

/-- However often a key was put in, it is there once. -/
theorem keys_ofList (f : String → Option α) (names : List String) :
    (ofList (names.filterMap fun name => (f name).map (name, ·))).keys.Perm
      (names.filter fun name => (f name).isSome).dedup := by
  rw [List.perm_ext_iff_of_nodup (nodup_keys _) (List.nodup_dedup _)]
  intro key
  rw [mem_keys_iff, contains, get?_ofList, List.mem_dedup, List.mem_filter]
  split
  · next hkey => simp [hkey]
  · next hkey => simp [hkey]

end Dict

end Backlog
