/-
  Words of a fixed vocabulary.

  Statuses, pools, levels and sizes are named by words.  A text names a member when its lower case
  is the member's word; every word of this project is ASCII, so only the characters whose lower
  case is ASCII matter: the capital letters and the Kelvin sign.  A text that names no member is an
  `UnknownWord`, whose message quotes the text as it was given.
-/

namespace Backlog.Text

/-! ## Lower case -/

/-- The lower case of a character, as far as it is ASCII: A to Z, and the Kelvin sign, whose lower
    case is k.  Every other character stays, since no other lower case is a single ASCII one. -/
def lowerChar (c : Char) : Char :=
  if c = '\u212A' then 'k' else c.toLower

/-- The lower case of a text, as far as it matters beside an ASCII word. -/
def lower (s : String) : String := String.ofList (s.toList.map lowerChar)

/-! ## Vocabularies -/

/-- A finite list of members, each with its word. -/
class Vocabulary (α : Type) where
  /-- What the members are called in a message. -/
  subject : String
  /-- The members in declaration order. -/
  members : List α
  /-- The word of a member. -/
  word : α → String
  /-- What is done to a text, once in lower case, before it is compared. -/
  normalize : String → String := id

export Vocabulary (word)

/-- A text that names no member of a vocabulary. -/
structure UnknownWord where
  /-- What was expected. -/
  subject : String
  /-- The text as given. -/
  text : String
  /-- The words that would have been understood. -/
  valid : List String
deriving DecidableEq, Repr

/-- The message for a text that names no member. -/
def UnknownWord.message (e : UnknownWord) : String :=
  s!"Invalid {e.subject} '{e.text}'. Valid values: " ++ ", ".intercalate e.valid

/-- The member whose word the text is, letter for letter. -/
def exactWord? (α : Type) [Vocabulary α] (text : String) : Option α :=
  (Vocabulary.members (α := α)).find? fun a => word a == text

/-- The member that a text names. -/
def readWord (α : Type) [Vocabulary α] (text : String) : Except UnknownWord α :=
  match exactWord? α (Vocabulary.normalize α (lower text)) with
  | some a => .ok a
  | none => .error
    { subject := Vocabulary.subject α, text, valid := (Vocabulary.members (α := α)).map word }

/-- A vocabulary in which every member's word, taken as it is or normalized, names that member. -/
class LawfulVocabulary (α : Type) [Vocabulary α] : Prop where
  exactWord?_word : ∀ a : α, exactWord? α (word a) = some a
  normalize_word : ∀ a : α, Vocabulary.normalize α (lower (word a)) = word a

/-- Reading a member's word gives the member. -/
theorem readWord_word {α : Type} [Vocabulary α] [LawfulVocabulary α] (a : α) :
    readWord α (word a) = .ok a := by
  simp [readWord, LawfulVocabulary.normalize_word, LawfulVocabulary.exactWord?_word]

end Backlog.Text
