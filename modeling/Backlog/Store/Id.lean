/-
  Fresh item IDs.

  An ID is a stem, a dash and a number.  Numbers count on from the highest that a known ID with the
  same stem has, so a fresh ID differs from every known one; they end one below 2^64 - 1, the
  greatest number an ID may have.
-/
import Backlog.Store.Error
import Backlog.Text.Digits

namespace Backlog

/-- A source of fresh IDs beside known ones. -/
structure IdSource where
  /-- The text before the dash. -/
  stem : String
  /-- The IDs that are taken. -/
  known : List String
  /-- The number to try next. -/
  next : Nat
deriving DecidableEq, Repr

namespace IdSource

/-- How many numbers are tried for one ID. -/
def maxAttempts : Nat := 1000

/-- The greatest number; it is never given out. -/
def maxNumber : Nat := Nat.pow 2 64 - 1

/-- Whether a text can stand before the dash: ASCII letters and digits, at least one. -/
def isStem (text : String) : Bool := !text.isEmpty && text.toList.all Char.isAlphanum

/-- The ID with a number. -/
def idOf (stem : String) (number : Nat) : String := s!"{stem}-{number}"

/-- The number of an ID with this stem, read generously. -/
def number? (stem id : String) : Option Nat :=
  let lead := (stem ++ "-").toList
  if lead.isPrefixOf id.toList then
    Text.readUnsigned? (String.ofList (id.toList.drop lead.length))
  else none

/-- The highest number among IDs with this stem, zero without any. -/
def highest (stem : String) (known : List String) : Nat :=
  (known.filterMap (number? stem)).foldl max 0

/-- A source that counts on from the highest known number. -/
def make (stem : String) (known : List String) : Except StoreError IdSource :=
  if isStem stem then .ok ⟨stem, known, min (highest stem known + 1) maxNumber⟩
  else .error (.invalidId stem)

/-- Try as many numbers as given, from the next one on. -/
def probe : Nat → IdSource → Except StoreError String × IdSource
  | 0, source => (.error (.idsExhausted source.stem maxAttempts), source)
  | attempts + 1, source =>
    if maxNumber ≤ source.next then (.error (.idsExhausted source.stem maxAttempts), source)
    else
      let id := idOf source.stem source.next
      if source.known.contains id then probe attempts { source with next := source.next + 1 }
      else (.ok id, { source with known := id :: source.known, next := source.next + 1 })

/-- The next fresh ID, which is then taken. -/
def fresh (source : IdSource) : Except StoreError String × IdSource :=
  probe maxAttempts source

/-- As many fresh IDs as asked for; the first that cannot be had ends it. -/
def freshMany : Nat → IdSource → Except StoreError (List String)
  | 0, _ => .ok []
  | n + 1, source =>
    match source.fresh with
    | (.error e, _) => .error e
    | (.ok id, source) => (freshMany n source).map (id :: ·)

/-! ## Examples -/

/-- The first IDs beside known ones. -/
def sampleIds? (known : List String) (n : Nat) : Option (List String) :=
  ((make "WRK" known).bind (freshMany n)).toOption

example : sampleIds? ["WRK-2", "WRK-017", "OTHER-99"] 2 = some ["WRK-18", "WRK-19"] := by
  decide +kernel
example : sampleIds? ["WRK-18446744073709551613"] 2 = none := by decide +kernel

end IdSource

end Backlog
