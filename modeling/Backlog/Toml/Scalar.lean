/-
  Numbers, truth values and dates of a configuration document.

  A whole number is decimal without leading zeros, or hexadecimal, octal or binary; single
  underscores may stand between digits.  A number with a fraction or an exponent has a value within
  the range of doubles only, a whole number within 128 bits.  A number beyond these, and a word that
  is laid out like a whole number without being one, may stand where nobody asks for its value
  (`Scalar.unfit`).  Of dates and times only the form and the ranges of their parts matter.
-/
import Backlog.Json.Double
import Backlog.Json.Raw
import Backlog.Time.Calendar

namespace Backlog.Toml

open Text (isDigit natOfDigits)

/-- A value without parts. -/
inductive Scalar where
  | text (s : String)
  | integer (n : Int)
  | float
  | bool (b : Bool)
  | date
  /-- A number without a value. -/
  | unfit
deriving DecidableEq, Repr

/-! ## Digits -/

/-- Digits without the underscores between them; each underscore has a digit on both sides. -/
def plainDigits? (digit : Char → Bool) (cs : List Char) : Option (List Char) :=
  let rec go : Bool → List Char → Option (List Char)
    | afterDigit, [] => if afterDigit then some [] else none
    | afterDigit, '_' :: rest => if afterDigit then go false rest else none
    | _, c :: rest => if digit c then (go true rest).map (c :: ·) else none
  go false cs

/-- Decimal digits without leading zeros. -/
def decimal? (cs : List Char) : Option (List Char) := do
  let digits ← plainDigits? isDigit cs
  match digits with
  | '0' :: _ :: _ => none
  | _ => some digits

/-- A number in a base given by its digits. -/
def inBase? (base : Nat) (cs : List Char) : Option Nat := do
  let value? (c : Char) : Option Nat := (Json.Raw.hexValue? c).filter (· < base)
  let digits ← plainDigits? (fun c => (value? c).isSome) cs
  let values ← digits.mapM value?
  return values.foldl (fun n d => base * n + d) 0

/-! ## Numbers -/

/-- Whether the number is negative, and what follows the sign. -/
def readSign : List Char → Bool × List Char
  | '-' :: rest => (true, rest)
  | '+' :: rest => (false, rest)
  | cs => (false, cs)

/-- A whole number, however large. -/
def whole? (cs : List Char) : Option Int :=
  match cs with
  | '0' :: 'x' :: rest => (inBase? 16 rest).map Int.ofNat
  | '0' :: 'o' :: rest => (inBase? 8 rest).map Int.ofNat
  | '0' :: 'b' :: rest => (inBase? 2 rest).map Int.ofNat
  | _ => do
    let (negative, digits) := readSign cs
    let n := natOfDigits (← decimal? digits)
    return if negative then -(n : Int) else n

/-- Whether a character begins an exponent. -/
def isMark (c : Char) : Bool := c == 'e' || c == 'E'

/-- Whether each underscore stands between digits of some base, given the character in front. -/
def spacesDigits : Char → List Char → Bool
  | last, [] => last ≠ '_'
  | last, c :: rest =>
    let isDigit (c : Char) : Bool := (Json.Raw.hexValue? c).isSome
    (last ≠ '_' || isDigit c) && (c ≠ '_' || isDigit last) && spacesDigits c rest

/-- Whether a word is laid out like a whole number: the mark of a base alone, or decimal digits up
    to an underscore and any characters then but a point or the mark of an exponent, as long as each
    underscore stands between digits. -/
def isLaidOut (cs : List Char) : Bool :=
  cs = ['0', 'x'] || cs = ['0', 'o'] || cs = ['0', 'b'] ||
  match (readSign cs).2 with
  | [] => false
  | first :: rest =>
    isDigit first && first ≠ '0' && (rest.dropWhile isDigit).head? == some '_'
      && !rest.any (fun c => c == '.' || isMark c) && spacesDigits first rest

/-- Whether a number with a fraction, an exponent or both, or one that is no number or infinite, has
    a value; none for anything else. -/
def float? (cs : List Char) : Option Bool :=
  let (negative, magnitude) := readSign cs
  if magnitude = ['i', 'n', 'f'] ∨ magnitude = ['n', 'a', 'n'] then some true
  else
    let mantissa := magnitude.takeWhile fun c => !isMark c
    let whole := mantissa.takeWhile (· ≠ '.')
    let fraction? := match mantissa.drop whole.length with
      | [] => some []
      | _ :: digits => plainDigits? isDigit digits
    let power? := match magnitude.drop mantissa.length with
      | [] => some 0
      | _ :: exponent =>
        let (down, digits) := readSign exponent
        (plainDigits? isDigit digits).map fun ds =>
          if down then -(natOfDigits ds : Int) else natOfDigits ds
    match decimal? whole, fraction?, power? with
    | some whole, some fraction, some power =>
      if magnitude.any (fun c => c == '.' || isMark c) then
        some (Json.Double.ofDecimal? negative (natOfDigits (whole ++ fraction))
          (power - fraction.length)).isSome
      else none
    | _, _, _ => none

/-! ## Dates and times -/

/-- A number of exactly so many digits within bounds, and what follows it. -/
def number? (width low high : Nat) (cs : List Char) : Option (Nat × List Char) :=
  let digits := cs.take width
  if digits.length = width ∧ digits.all isDigit ∧ low ≤ natOfDigits digits
      ∧ natOfDigits digits ≤ high then
    some (natOfDigits digits, cs.drop width)
  else none

/-- What follows a mark. -/
def after? (mark : Char) : List Char → Option (List Char)
  | c :: rest => if c = mark then some rest else none
  | [] => none

/-- What follows a date. -/
def readDate? (cs : List Char) : Option (List Char) := do
  let (year, cs) ← number? 4 0 9999 cs
  let (month, cs) ← number? 2 1 12 (← after? '-' cs)
  let (day, cs) ← number? 2 1 31 (← after? '-' cs)
  if (Time.Date.mk year month day).isValid then some cs else none

/-- What follows a time, whose seconds may be left out. -/
def readTime? (cs : List Char) : Option (List Char) := do
  let (_, cs) ← number? 2 0 23 cs
  let (_, cs) ← number? 2 0 59 (← after? ':' cs)
  match cs with
  | ':' :: rest => do
    let (_, cs) ← number? 2 0 60 rest
    match cs with
    | '.' :: rest => do
      guard (!(rest.takeWhile isDigit).isEmpty)
      return rest.dropWhile isDigit
    | _ => return cs
  | _ => return cs

/-- Whether an offset follows, or nothing. -/
def isOffset : List Char → Bool
  | [] | ['Z'] | ['z'] => true
  | c :: rest => (c == '+' || c == '-') && (do
      let (_, cs) ← number? 2 0 23 rest
      let (_, cs) ← number? 2 0 59 (← after? ':' cs)
      guard cs.isEmpty).isSome

/-- Whether characters are a date, a time, or both with an offset or without. -/
def isDate (cs : List Char) : Bool :=
  match readDate? cs with
  | some [] => true
  | some (mark :: rest) =>
    (mark == 'T' || mark == 't' || mark == ' ') && (readTime? rest).any isOffset
  | none => (readTime? cs).any List.isEmpty

/-! ## Values -/

/-- The value that characters without quotes and brackets stand for. -/
def scalar? (cs : List Char) : Option Scalar :=
  if cs = ['t', 'r', 'u', 'e'] then some (.bool true)
  else if cs = ['f', 'a', 'l', 's', 'e'] then some (.bool false)
  else
    match whole? cs with
    | some n => some (if -Int.pow 2 127 ≤ n ∧ n < Int.pow 2 128 then .integer n else .unfit)
    | none =>
      match float? cs with
      | some fits => some (if fits then .float else .unfit)
      | none => if isDate cs then some .date else if isLaidOut cs then some .unfit else none

/-- A character of a value without quotes and brackets; within one, quotes mean nothing. -/
def isScalarChar (c : Char) : Bool :=
  c ∉ ['=', ',', '[', ']', '{', '}', '#', ' ', '\t', '\r', '\n']

/-- A value without quotes and brackets, and what follows it. A date may be followed by a space and
    a time. -/
def readScalar? (cs : List Char) : Option (Scalar × List Char) := do
  let word := cs.takeWhile isScalarChar
  let rest := cs.drop word.length
  match rest with
  | ' ' :: c :: more =>
    if (readDate? word).any List.isEmpty && isDigit c then
      let time := (c :: more).takeWhile isScalarChar
      return (← scalar? (word ++ ' ' :: time), (c :: more).drop time.length)
    else return (← scalar? word, rest)
  | _ => return (← scalar? word, rest)

/-! ## Examples -/

/-- The values that texts stand for. -/
def scalars (texts : List String) : List (Option Scalar) := texts.map fun s => scalar? s.toList

example : scalars ["+1_000", "-0", "0xFf", "01", "1__0", "_1"]
    = [some (.integer 1000), some (.integer 0), some (.integer 255), none, none, none] := by
  decide +kernel
example : scalars ["1.5", "1e06", "-inf", "1.", ".5"]
    = [some .float, some .float, some .float, none, none] := by decide +kernel
example : scalars ["1e400", "0x", "1_0\"x", "0_1\"x", "1_0.\"x"]
    = [some .unfit, some .unfit, some .unfit, none, none] := by decide +kernel
example : scalars ["1979-05-27T07:32:00Z", "1979-05-27", "07:32", "1979-02-29", "1979-05-27T"]
    = [some .date, some .date, some .date, none, none] := by decide +kernel

end Backlog.Toml
