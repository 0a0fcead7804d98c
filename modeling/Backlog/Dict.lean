/-
  Text-keyed dictionaries, kept in key order.

  An item's extension entries, the configured pipelines, the work in flight and a directory's
  entries are all maps from texts, and all of them are shown in key order.  So a `Dict` IS its
  list of entries, strictly increasing in the key: two dictionaries with the same answers are the
  same value (`Dict.ext_get?`), and what is written out needs no sorting.

  View: `get?`.  One equation per operation: `get?_insert`, `get?_erase`.
-/

namespace Backlog

/-! ## Entry lists -/

/-- Put a value under a key, keeping increasing keys increasing; a value already there gives way. -/
def insertEntry {α : Type} (key : String) (value : α) : List (String × α) → List (String × α)
  | [] => [(key, value)]
  | (k, v) :: rest =>
    if key < k then (key, value) :: (k, v) :: rest
    else if key = k then (key, value) :: rest
    else (k, v) :: insertEntry key value rest

/-- The value of the first entry under a key. -/
def lookupEntry {α : Type} (key : String) : List (String × α) → Option α
  | [] => none
  | (k, v) :: rest => if key = k then some v else lookupEntry key rest

/-- Keys strictly increase along the list. -/
abbrev IncreasingKeys {α : Type} (entries : List (String × α)) : Prop :=
  entries.Pairwise fun a b => a.1 < b.1

theorem mem_insertEntry {α : Type} {key : String} {value : α} {e : String × α}
    {entries : List (String × α)} (h : e ∈ insertEntry key value entries) :
    e = (key, value) ∨ e ∈ entries := by
  induction entries with
  | nil => simpa [insertEntry] using h
  | cons first rest ih =>
    obtain ⟨k, v⟩ := first
    rw [insertEntry] at h
    split at h
    · simpa using h
    · split at h
      · rcases List.mem_cons.1 h with h | h
        · exact .inl h
        · exact .inr (List.mem_cons_of_mem _ h)
      · rcases List.mem_cons.1 h with h | h
        · exact .inr (h ▸ List.mem_cons_self)
        · exact (ih h).imp id (List.mem_cons_of_mem _)

theorem insertEntry_increasing {α : Type} (key : String) (value : α)
    {entries : List (String × α)} (h : IncreasingKeys entries) :
    IncreasingKeys (insertEntry key value entries) := by
  induction entries with
  | nil => simp [insertEntry]
  | cons first rest ih =>
    obtain ⟨k, v⟩ := first
    have hrest := List.pairwise_cons.1 h
    rw [insertEntry]
    split
    · next hlt =>
      refine List.pairwise_cons.2 ⟨fun e he => ?_, h⟩
      rcases List.mem_cons.1 he with rfl | he
      · exact hlt
      · exact String.lt_trans hlt (hrest.1 e he)
    · split
      · next heq => exact List.pairwise_cons.2 ⟨fun e he => heq ▸ hrest.1 e he, hrest.2⟩
      · next hlt hne =>
        refine List.pairwise_cons.2 ⟨fun e he => ?_, ih hrest.2⟩
        rcases mem_insertEntry he with rfl | he
        · exact Std.lt_of_le_of_ne (String.not_lt.1 hlt) (Ne.symm hne)
        · exact hrest.1 e he

theorem lookupEntry_insertEntry {α : Type} (key other : String) (value : α)
    (entries : List (String × α)) :
    lookupEntry other (insertEntry key value entries)
      = if other = key then some value else lookupEntry other entries := by
  induction entries with
  | nil => simp [insertEntry, lookupEntry]
  | cons first rest ih =>
    obtain ⟨k, v⟩ := first
    rw [insertEntry]
    split
    · simp [lookupEntry]
    · split
      · next heq => subst heq; by_cases h : other = key <;> simp [lookupEntry, h]
      · next hne =>
        by_cases h : other = key
        · subst h; simp [lookupEntry, hne, ih]
        · simp [lookupEntry, ih, h]

/-! ## Dictionaries -/

/-- A map from texts, as its entries in key order. -/
@[ext] structure Dict (α : Type) where
  /-- The entries, each key once, in increasing order. -/
  entries : List (String × α)
  increasing : IncreasingKeys entries

namespace Dict

variable {α β : Type}

instance [DecidableEq α] : DecidableEq (Dict α) := fun a b =>
  decidable_of_iff (a.entries = b.entries) Dict.ext_iff.symm

/-- The dictionary without entries. -/
def empty : Dict α := ⟨[], List.Pairwise.nil⟩

instance : Inhabited (Dict α) := ⟨empty⟩

/-- The value under a key. -/
def get? (d : Dict α) (key : String) : Option α := lookupEntry key d.entries

/-- Whether the key has a value. -/
def contains (d : Dict α) (key : String) : Bool := (d.get? key).isSome

/-- Put a value under a key, in place of any there. -/
def insert (d : Dict α) (key : String) (value : α) : Dict α :=
  ⟨insertEntry key value d.entries, insertEntry_increasing key value d.increasing⟩

/-- Drop a key with its value. -/
def erase (d : Dict α) (key : String) : Dict α :=
  ⟨d.entries.filter fun e => e.1 != key, d.increasing.sublist List.filter_sublist⟩

/-- Entries put in one by one: of equal keys the last wins. -/
def ofList (entries : List (String × α)) : Dict α :=
  entries.foldl (fun d e => d.insert e.1 e.2) empty

/-- The keys, in increasing order. -/
def keys (d : Dict α) : List String := d.entries.map (·.1)

/-- The values, in the order of their keys. -/
def values (d : Dict α) : List α := d.entries.map (·.2)

/-- The number of entries. -/
def size (d : Dict α) : Nat := d.entries.length

/-- Whether there is no entry. -/
def isEmpty (d : Dict α) : Bool := d.entries.isEmpty

/-- Change every value, keys kept. -/
def mapValues (f : α → β) (d : Dict α) : Dict β :=
  ⟨d.entries.map fun e => (e.1, f e.2), List.Pairwise.map _ (fun _ _ h => h) d.increasing⟩

/-! ## One equation per operation -/

@[simp] theorem get?_empty (key : String) : (empty : Dict α).get? key = none := rfl

@[simp] theorem get?_insert (d : Dict α) (key other : String) (value : α) :
    (d.insert key value).get? other = if other = key then some value else d.get? other :=
  lookupEntry_insertEntry key other value d.entries

@[simp] theorem get?_erase (d : Dict α) (key other : String) :
    (d.erase key).get? other = if other = key then none else d.get? other := by
  show lookupEntry other (d.entries.filter fun e => e.1 != key) = _
  rw [get?]
  generalize d.entries = entries
  induction entries with
  | nil => simp [lookupEntry]
  | cons first rest ih =>
    obtain ⟨k, v⟩ := first
    by_cases hk : k = key
    · subst hk
      rw [List.filter_cons_of_neg (by simp), ih]
      by_cases ho : other = k <;> simp [lookupEntry, ho]
    · rw [List.filter_cons_of_pos (by simp [hk]), lookupEntry, lookupEntry, ih]
      by_cases ho : other = k
      · simp [ho, hk]
      · simp [ho]

theorem contains_iff (d : Dict α) (key : String) :
    d.contains key = true ↔ ∃ value, d.get? key = some value := by
  simp [contains, Option.isSome_iff_exists]

/-- A key that no entry carries has no value. -/
theorem lookupEntry_eq_none {key : String} {entries : List (String × α)}
    (h : ∀ e ∈ entries, e.1 ≠ key) : lookupEntry key entries = none := by
  induction entries with
  | nil => rfl
  | cons first rest ih =>
    obtain ⟨k, v⟩ := first
    have hk : key ≠ k := fun e => h (k, v) List.mem_cons_self e.symm
    simpa [lookupEntry, hk] using ih fun e he => h e (List.mem_cons_of_mem _ he)

/-- Dictionaries with the same answers are the same. -/
theorem ext_get? {d e : Dict α} (h : ∀ key, d.get? key = e.get? key) : d = e := by
  obtain ⟨as, has⟩ := d
  obtain ⟨bs, hbs⟩ := e
  simp only [get?] at h
  refine Dict.ext ?_
  show as = bs
  have smallest : ∀ {k : String} {v : α} {rest : List (String × α)},
      IncreasingKeys ((k, v) :: rest) → lookupEntry k rest = none := fun hp =>
    lookupEntry_eq_none fun e he heq =>
      String.lt_irrefl _ (heq ▸ (List.pairwise_cons.1 hp).1 e he)
  have below : ∀ {j k : String} {v : α} {rest : List (String × α)},
      IncreasingKeys ((k, v) :: rest) → j < k → lookupEntry j ((k, v) :: rest) = none :=
    fun hp hlt => lookupEntry_eq_none fun e he heq => by
      rcases List.mem_cons.1 he with rfl | he
      · exact String.lt_irrefl _ (heq ▸ hlt)
      · exact String.lt_irrefl _
          (String.lt_trans hlt (heq ▸ (List.pairwise_cons.1 hp).1 e he))
  induction as generalizing bs with
  | nil =>
    cases bs with
    | nil => rfl
    | cons b bs => exact absurd (h b.1) (by simp [lookupEntry])
  | cons a as ih =>
    obtain ⟨k, v⟩ := a
    cases bs with
    | nil => exact absurd (h k) (by simp [lookupEntry])
    | cons b bs =>
      obtain ⟨j, w⟩ := b
      have hjk : k = j := by
        rcases Classical.em (k = j) with e | e
        · exact e
        · rcases Classical.em (k < j) with hlt | hge
          · have := h k
            rw [below hbs hlt] at this
            simp [lookupEntry] at this
          · have hlt : j < k := Std.lt_of_le_of_ne (String.not_lt.1 hge) (Ne.symm e)
            have := h j
            rw [below has hlt] at this
            simp [lookupEntry] at this
      subst hjk
      have hv : v = w := by simpa [lookupEntry] using h k
      subst hv
      congr 1
      refine ih (List.pairwise_cons.1 has).2 bs (List.pairwise_cons.1 hbs).2 fun key => ?_
      have := h key
      by_cases hk : key = k
      · subst hk; rw [smallest has, smallest hbs]
      · simpa [lookupEntry, hk] using this

end Dict

/-! ## Examples -/

example : (Dict.ofList [("b", 1), ("a", 2), ("b", 3)]).entries = [("a", 2), ("b", 3)] := by decide
example : ((Dict.ofList [("b", 1), ("a", 2)]).erase "a").get? "b" = some 1 := by decide

end Backlog
