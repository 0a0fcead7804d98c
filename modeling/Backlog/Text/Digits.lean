/-
  Whole numbers as decimal text, and text set in columns.

  Written numbers are canonical (`toString`); read ones may carry a sign and leading zeros, as long
  as every other character is an ASCII digit and the value fits its range.
-/

namespace Backlog.Text

/-! ## Reading whole numbers -/

/-- Whether a character is one of 0 to 9. -/
def isDigit (c : Char) : Bool := '0' ≤ c && c ≤ '9'

/-- The value of an ASCII digit. -/
def digitValue (c : Char) : Nat := c.toNat - 48

/-- The number a row of decimal digits stands for. -/
def natOfDigits (cs : List Char) : Nat := cs.foldl (fun n c => 10 * n + digitValue c) 0

/-- A row of at least one digit and nothing else. -/
def readDigits? (cs : List Char) : Option Nat :=
  if cs.isEmpty then none else if cs.all isDigit then some (natOfDigits cs) else none

/-- A number below 2^64: digits, with a plus sign before them or not. -/
def readUnsigned? (s : String) : Option Nat :=
  let digits := match s.toList with
    | '+' :: rest => rest
    | cs => cs
  (readDigits? digits).filter (· < Nat.pow 2 64)

/-- A number from -2^63 to 2^63 - 1: digits, with a sign before them or not. -/
def readSigned? (s : String) : Option Int :=
  let value := match s.toList with
    | '+' :: rest => (readDigits? rest).map Int.ofNat
    | '-' :: rest => (readDigits? rest).map fun n => -(Int.ofNat n)
    | cs => (readDigits? cs).map Int.ofNat
  value.filter fun n => -Int.pow 2 63 ≤ n && n < Int.pow 2 63

/-! ## Writing in a fixed width -/

/-- The number with zeros in front up to a width. -/
def zeroPadded (width n : Nat) : String :=
  let digits := toString n
  String.ofList (List.replicate (width - digits.length) '0') ++ digits

/-- The text with spaces after it up to a width, counted in characters. -/
def padRight (width : Nat) (s : String) : String :=
  s ++ String.ofList (List.replicate (width - s.length) ' ')

/-- The text with spaces before it up to a width, counted in characters. -/
def padLeft (width : Nat) (s : String) : String :=
  String.ofList (List.replicate (width - s.length) ' ') ++ s

/-! ## Examples -/

example : readUnsigned? "+007" = some 7 := by decide
example : readUnsigned? "18446744073709551616" = none := by decide
example : readSigned? "-9223372036854775808" = some (-9223372036854775808) := by decide

end Backlog.Text
