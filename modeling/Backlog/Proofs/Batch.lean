/-
  What commit messages tell.

  Program: the message of a batch is put together from the IDs of its items and from a piece of text for
  each entry; a change that is committed alone has a message of one line.

  Specification: a message is the text of some lines.  That of a batch has a heading with its items, in
  the order of their first changes, then an empty line, and then a line for each change, in the order of
  the batch (`isListedBy_message`).  So each change has a line of its own in the message
  (`IsListedBy.hasLine`).

  The crux is the heading: to add each item that is not there yet is to drop all repetitions at the end
  (`foldl_adjoin`).
-/
import Backlog.Batch

namespace Backlog

/-- Adding each text that is not there yet adds those that are lacking, in order and each once. -/
theorem foldl_adjoin (xs ys : List String) :
    ys.foldl (fun acc y => if acc.contains y then acc else acc ++ [y]) xs
      = xs ++ (ys.filter fun y => y ∉ xs).eraseDups := by
  induction ys generalizing xs with
  | nil => simp
  | cons y ys ih =>
    rw [List.foldl_cons]
    by_cases hy : y ∈ xs
    · rw [if_pos (List.contains_iff_mem.mpr hy), ih, List.filter_cons_of_neg (by simpa using hy)]
    · rw [if_neg (by simpa using hy), ih, List.filter_cons_of_pos (by simpa using hy),
        List.eraseDups_cons, List.filter_filter, List.append_assoc, List.singleton_append]
      refine congrArg (xs ++ y :: ·.eraseDups) (List.filter_congr fun z _ => ?_)
      by_cases hxs : z ∈ xs <;> by_cases hz : z = y <;> simp [hxs, hz]

namespace Batch

/-! ## Messages and their lines -/

/-- The text of some lines, each of them ended. -/
def textOf (lines : List String) : String := String.join (lines.map (· ++ "\n"))

/-- The message lists the changes of the batch: below a heading with their items, each once, and an
    empty line, every change has a line of its own, in order. -/
def IsListedBy (batch : Batch) (message : String) : Prop :=
  message = textOf
    (("[phasekeep] batch: " ++ ", ".intercalate (batch.map Entry.item).eraseDups) :: "" ::
      batch.map fun e => "- " ++ e.item ++ ": " ++ e.summary)

/-- The message tells this change and nothing else. -/
def Entry.IsToldBy (e : Entry) (message : String) : Prop :=
  message = "[phasekeep] " ++ e.item ++ ": " ++ e.summary

/-- The message has a line for the change, or is that line. -/
def Entry.HasLineIn (e : Entry) (message : String) : Prop :=
  e.IsToldBy message ∨
    ∃ above below, message = textOf (above ++ ("- " ++ e.item ++ ": " ++ e.summary) :: below)

variable {batch : Batch} {message : String} {e : Entry}

theorem IsListedBy.hasLine (h : batch.IsListedBy message) (he : e ∈ batch) : e.HasLineIn message := by
  obtain ⟨before, after, rfl⟩ := List.append_of_mem he
  rw [IsListedBy, List.map_append (f := fun e : Entry => "- " ++ e.item ++ ": " ++ e.summary),
    List.map_cons] at h
  exact .inr ⟨_ :: _ :: _, _, h⟩

/-! ## The messages of the program -/

theorem items_eq (batch : Batch) : items batch = (batch.map Entry.item).eraseDups := by
  have hadjoin := foldl_adjoin [] (batch.map Entry.item)
  rw [List.foldl_map] at hadjoin
  rw [items, hadjoin, List.nil_append, List.filter_eq_self.mpr (by simp)]

theorem isListedBy_message (batch : Batch) : batch.IsListedBy batch.message := by
  have hlines : (batch.map fun e => "- " ++ e.item ++ ": " ++ e.summary).map (· ++ "\n")
      = batch.map line := by
    rw [List.map_map]
    rfl
  -- the heading ends, and so does the empty line below it
  have hbreak : ∀ heading rest : String,
      heading ++ "\n" ++ ("" ++ "\n" ++ rest) = heading ++ "\n\n" ++ rest := by
    intro heading rest
    rw [String.empty_append, ← String.append_assoc, @String.append_assoc heading]
    rfl
  rw [IsListedBy, textOf, List.map_cons, List.map_cons, hlines, String.join_cons, String.join_cons,
    hbreak, ← items_eq]
  rfl

theorem Entry.isToldBy_message (e : Entry) : e.IsToldBy e.message := rfl

end Batch

end Backlog
