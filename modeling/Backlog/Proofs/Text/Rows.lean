/-
  Rows cut at a separator.

  Program: characters of a path and bytes of a file are put in front of the rows that follow them, one
  by one from the right; the separator begins a new row.

  Specification: what stands before a separator and what stands after it are cut each on its own
  (`Cuts.foldr_append`), and what has no separator is one row (`Cuts.foldr_of_not_mem`).
-/

namespace Backlog.Text

variable {α : Type} {mark : α} {add : α → List (List α) → List (List α)}

/-- One step of a cut: the mark begins a new row, anything else goes in front of the first one. -/
structure Cuts (mark : α) (add : α → List (List α) → List (List α)) : Prop where
  atMark : ∀ row rows, add mark (row :: rows) = [] :: row :: rows
  other : ∀ a row rows, a ≠ mark → add a (row :: rows) = (a :: row) :: rows

/-- There is always a row to put something in front of. -/
theorem Cuts.exists_cons (h : Cuts mark add) (as : List α) :
    ∃ row rows, as.foldr add [[]] = row :: rows := by
  induction as with
  | nil => exact ⟨[], [], rfl⟩
  | cons a as ih =>
    obtain ⟨row, rows, hrows⟩ := ih
    rw [List.foldr_cons, hrows]
    by_cases ha : a = mark
    · subst ha
      exact ⟨[], row :: rows, h.atMark row rows⟩
    · exact ⟨a :: row, rows, h.other a row rows ha⟩

theorem Cuts.foldr_of_not_mem (h : Cuts mark add) {as : List α} (has : mark ∉ as) :
    as.foldr add [[]] = [as] := by
  induction as with
  | nil => rfl
  | cons a as ih =>
    obtain ⟨ha, has⟩ := not_or.mp (mt List.mem_cons.mpr has)
    rw [List.foldr_cons, ih has, h.other a as [] (Ne.symm ha)]

/-- A mark ends the rows in front of it. -/
theorem Cuts.foldr_append (h : Cuts mark add) (as bs : List α) :
    (as ++ mark :: bs).foldr add [[]] = as.foldr add [[]] ++ bs.foldr add [[]] := by
  induction as with
  | nil =>
    obtain ⟨row, rows, hrows⟩ := h.exists_cons bs
    rw [List.nil_append, List.foldr_cons, hrows, h.atMark]
    rfl
  | cons a as ih =>
    obtain ⟨row, rows, hrows⟩ := h.exists_cons as
    rw [List.cons_append, List.foldr_cons, ih, List.foldr_cons, hrows, List.cons_append]
    by_cases ha : a = mark
    · subst ha
      rw [h.atMark, h.atMark]
      rfl
    · rw [h.other a _ _ ha, h.other a _ _ ha]
      rfl

end Backlog.Text
