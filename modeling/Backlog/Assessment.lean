/-
  What is judged about an item: impact and risk, size, and the kind of answer it waits for.
-/
import Backlog.Text.Word

namespace Backlog

open Text (Vocabulary LawfulVocabulary)

/-- How much impact or risk an item has. -/
inductive Level where
  | low | medium | high
deriving DecidableEq, Repr

instance : Vocabulary Level where
  subject := "level"
  members := [.low, .medium, .high]
  word
    | .low => "low"
    | .medium => "medium"
    | .high => "high"

instance : LawfulVocabulary Level where
  exactWord?_word a := by cases a <;> decide
  normalize_word a := by cases a <;> decide

/-- The place of a level from low to high. -/
def Level.rank : Level → Nat
  | .low => 0
  | .medium => 1
  | .high => 2

/-- How large an item is. -/
inductive Size where
  | small | medium | large
deriving DecidableEq, Repr

instance : Vocabulary Size where
  subject := "size"
  members := [.small, .medium, .large]
  word
    | .small => "small"
    | .medium => "medium"
    | .large => "large"

instance : LawfulVocabulary Size where
  exactWord?_word a := by cases a <;> decide
  normalize_word a := by cases a <;> decide

/-- Why an item waits for a human. -/
inductive BlockType where
  /-- A question needs an answer. -/
  | clarification
  /-- A choice has to be made. -/
  | decision
deriving DecidableEq, Repr

instance : Vocabulary BlockType where
  subject := "block type"
  members := [.clarification, .decision]
  word
    | .clarification => "clarification"
    | .decision => "decision"

instance : LawfulVocabulary BlockType where
  exactWord?_word a := by cases a <;> decide
  normalize_word a := by cases a <;> decide

/-! ## Revisions -/

/-- Whether a character is a hexadecimal digit in either case. -/
def isHexDigit (c : Char) : Bool :=
  ('0' ≤ c && c ≤ '9') || ('a' ≤ c && c ≤ 'f') || ('A' ≤ c && c ≤ 'F')

/-- Whether a text looks like a revision: 7 to 64 hexadecimal digits. -/
def isRevision (text : String) : Bool :=
  7 ≤ text.utf8ByteSize && text.utf8ByteSize ≤ 64 && text.toList.all isHexDigit

/-! ## Examples -/

example : (Text.readWord Level "HIGH").toOption = some .high := by decide
example : (Text.readWord Size "gigantic").toOption = none := by decide
example : [isRevision "AbCdEf1", isRevision "abc12", isRevision "0x12345"] = [true, false, false] := by
  decide

end Backlog
