/-
  Values taken for what they are.

  Program: what the reader gives is taken for a value if it nests no deeper than allowed, its objects
  with their fields in key order.

  Specification: a value whose objects are in key order already is taken for itself, up to its depth
  (`toJson?_toRaw`).

  The crux is that entries in key order stay as they are when they are put into a dictionary one by one
  (`entries_ofList`), since each of them comes after all that are there.
-/
import Backlog.Json.Record

namespace Backlog

/-! ## Dictionaries made of entries in order -/

variable {α : Type}

theorem insertEntry_of_last {key : String} {value : α} {entries : List (String × α)}
    (h : ∀ e ∈ entries, e.1 < key) : insertEntry key value entries = entries ++ [(key, value)] := by
  induction entries with
  | nil => rfl
  | cons first rest ih =>
    obtain ⟨k, v⟩ := first
    have hk : k < key := h (k, v) List.mem_cons_self
    have hnot : ¬ key < k := fun hlt => String.lt_irrefl _ (String.lt_trans hlt hk)
    have hne : ¬ key = k := fun heq => String.lt_irrefl _ (heq ▸ hk)
    rw [insertEntry, if_neg hnot, if_neg hne, ih fun e he => h e (List.mem_cons_of_mem _ he)]
    rfl

theorem entries_foldl_insert {entries : List (String × α)} {d : Dict α}
    (h : IncreasingKeys (d.entries ++ entries)) :
    (entries.foldl (fun d e => d.insert e.1 e.2) d).entries = d.entries ++ entries := by
  induction entries generalizing d with
  | nil => exact (List.append_nil d.entries).symm
  | cons first rest ih =>
    have hlast : ∀ e ∈ d.entries, e.1 < first.1 := fun e he =>
      (List.pairwise_append.mp h).2.2 e he first List.mem_cons_self
    have hinsert : (d.insert first.1 first.2).entries = d.entries ++ [first] := insertEntry_of_last hlast
    rw [List.foldl_cons, ih, hinsert, List.append_assoc, List.singleton_append]
    rw [hinsert, List.append_assoc, List.singleton_append]
    exact h

/-- Entries in key order are those of the dictionary made of them. -/
theorem entries_ofList {entries : List (String × α)} (h : IncreasingKeys entries) :
    (Dict.ofList entries).entries = entries :=
  entries_foldl_insert h

theorem ofList_entries (d : Dict α) : Dict.ofList d.entries = d := Dict.ext (entries_ofList d.increasing)

namespace Json

/-! ## Depth and order -/

mutual

/-- How many arrays and objects lie within each other. -/
def depth : Json → Nat
  | .null | .bool _ | .number _ | .text _ => 0
  | .array items => depthOfItems items + 1
  | .object fields => depthOfFields fields + 1

/-- The depth of the deepest of values. -/
def depthOfItems : List Json → Nat
  | [] => 0
  | v :: vs => max (depth v) (depthOfItems vs)

/-- The depth of the deepest of fields. -/
def depthOfFields : List (String × Json) → Nat
  | [] => 0
  | (_, v) :: fs => max (depth v) (depthOfFields fs)

end

mutual

/-- Whether the fields of every object in a value are in key order. -/
def isSorted : Json → Bool
  | .null | .bool _ | .number _ | .text _ => true
  | .array items => itemsAreSorted items
  | .object fields => decide (IncreasingKeys fields) && fieldsAreSorted fields

/-- Whether values are sorted. -/
def itemsAreSorted : List Json → Bool
  | [] => true
  | v :: vs => isSorted v && itemsAreSorted vs

/-- Whether the values of fields are sorted. -/
def fieldsAreSorted : List (String × Json) → Bool
  | [] => true
  | (_, v) :: fs => isSorted v && fieldsAreSorted fs

end

theorem fieldsAreSorted_iff {fs : List (String × Json)} :
    fieldsAreSorted fs = true ↔ ∀ f ∈ fs, f.2.isSorted = true := by
  induction fs with
  | nil => simp [fieldsAreSorted]
  | cons f fs ih => simp [fieldsAreSorted, ih]

theorem depthOfFields_le_iff {fs : List (String × Json)} {limit : Nat} :
    depthOfFields fs ≤ limit ↔ ∀ f ∈ fs, f.2.depth ≤ limit := by
  induction fs with
  | nil => simp [depthOfFields]
  | cons f fs ih => rw [depthOfFields, Nat.max_le, ih, List.forall_mem_cons]

/-! ## Taken for a value -/

namespace Raw

mutual

/-- A sorted value is taken for itself where its depth is allowed. -/
theorem toJson?_toRaw : (v : Json) → (limit : Nat) → isSorted v = true → depth v ≤ limit →
    toJson? limit v.toRaw = some v
  | .null, _, _, _ => rfl
  | .bool _, _, _, _ => rfl
  | .number _, _, _, _ => rfl
  | .text _, _, _, _ => rfl
  | .array _, 0, _, h => absurd h (Nat.not_succ_le_zero _)
  | .array vs, limit + 1, hsorted, h => by
    have hvs := toItems?_toRaw vs limit hsorted (Nat.le_of_succ_le_succ h)
    rw [toRaw, toJson?, hvs]
    rfl
  | .object _, 0, _, h => absurd h (Nat.not_succ_le_zero _)
  | .object fs, limit + 1, hsorted, h => by
    obtain ⟨hkeys, hvalues⟩ := Bool.and_eq_true_iff.mp hsorted
    have hfs := toFields?_toRaw fs limit hvalues (Nat.le_of_succ_le_succ h)
    rw [toRaw, toJson?, hfs, Option.map_some, ofFields, entries_ofList (of_decide_eq_true hkeys)]

theorem toItems?_toRaw : (vs : List Json) → (limit : Nat) → itemsAreSorted vs = true →
    depthOfItems vs ≤ limit → toItems? limit (itemsToRaw vs) = some vs
  | [], _, _, _ => rfl
  | v :: vs, limit, hsorted, h => by
    obtain ⟨hv, hvs⟩ := Bool.and_eq_true_iff.mp hsorted
    obtain ⟨hdv, hdvs⟩ := Nat.max_le.mp h
    rw [itemsToRaw, toItems?, toJson?_toRaw v limit hv hdv, toItems?_toRaw vs limit hvs hdvs]
    rfl

theorem toFields?_toRaw : (fs : List (String × Json)) → (limit : Nat) → fieldsAreSorted fs = true →
    depthOfFields fs ≤ limit → toFields? limit (fieldsToRaw fs) = some fs
  | [], _, _, _ => rfl
  | (k, v) :: fs, limit, hsorted, h => by
    obtain ⟨hv, hfs⟩ := Bool.and_eq_true_iff.mp hsorted
    obtain ⟨hdv, hdfs⟩ := Nat.max_le.mp h
    rw [fieldsToRaw, toFields?, toJson?_toRaw v limit hv hdv, toFields?_toRaw fs limit hfs hdfs]
    rfl

end

end Raw

end Json

end Backlog
