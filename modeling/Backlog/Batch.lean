/-
  Changes that wait for the next commit.

  Every accepted change is an entry of the batch until a commit covers it.  The commit message lists
  the entries in the order in which they were accepted, each item once in its first line.
-/

namespace Backlog

/-- A change that waits for a commit. -/
structure Batch.Entry where
  item : String
  summary : String
deriving DecidableEq, Repr

/-- The changes that wait for a commit, the oldest first. -/
abbrev Batch := List Batch.Entry

namespace Batch

/-- The items with a change in the batch, each once, in the order of their first change. -/
def items (batch : Batch) : List String :=
  batch.foldl (fun ids e => if ids.contains e.item then ids else ids ++ [e.item]) []

/-- The line of a commit message for one change. -/
def line (e : Entry) : String := "- " ++ e.item ++ ": " ++ e.summary ++ "\n"

/-- The message of the commit that covers a batch. -/
def message (batch : Batch) : String :=
  "[phasekeep] batch: " ++ ", ".intercalate (items batch) ++ "\n\n" ++ String.join (batch.map line)

/-- The message of a commit that covers one change alone. -/
def Entry.message (e : Entry) : String := "[phasekeep] " ++ e.item ++ ": " ++ e.summary

/-! ## Examples -/

example : message [⟨"WRK-2", "prd complete"⟩, ⟨"WRK-3", "created"⟩, ⟨"WRK-2", "updated (1 changes)"⟩]
    = "[phasekeep] batch: WRK-2, WRK-3\n\n- WRK-2: prd complete\n- WRK-3: created\n"
      ++ "- WRK-2: updated (1 changes)\n" := by decide +kernel

end Batch

end Backlog
