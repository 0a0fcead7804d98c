/-
  JSON text, read.

  Reading goes in two steps, because a record skips the fields it does not know: a skipped value
  has to be well formed, but its numbers may lie beyond every range, its texts may hold unpaired
  surrogates and its nesting has no limit.  So `Raw.read?` gives the value as the grammar has it,
  such numbers and texts left open, and `Raw.toJson?` takes it for a value, refusing them and
  nesting beyond a given depth.  The grammar is the strict one: no comments, no trailing commas,
  nothing but white space after the value.

  The reader's functions take fuel; every step of one consumes a character or one of the two calls
  around it, so twice the length of the text is enough, and `read?` gives that.
-/
import Backlog.Json.Value
import Backlog.Text.Digits

namespace Backlog.Json

open Backlog.Text

/-- A JSON value as its text has it: a number beyond every range and a text with an unpaired
    surrogate are left open. -/
inductive Raw where
  | null
  | bool (b : Bool)
  | number (n : Option Number)
  | text (s : Option String)
  | array (items : List Raw)
  | object (fields : List (Option String × Raw))

namespace Raw

/-! ## Texts -/

/-- The value of a hexadecimal digit in either case. -/
def hexValue? (c : Char) : Option Nat :=
  if isDigit c then some (digitValue c)
  else if 'a' ≤ c ∧ c ≤ 'f' then some (c.toNat - 87)
  else if 'A' ≤ c ∧ c ≤ 'F' then some (c.toNat - 55)
  else none

/-- The number that four hexadecimal digits stand for. -/
def hex4? (a b c d : Char) : Option Nat := do
  return (((← hexValue? a) * 16 + (← hexValue? b)) * 16 + (← hexValue? c)) * 16 + (← hexValue? d)

/-- The character a one-letter escape stands for. -/
def escaped? : Char → Option Char
  | '"' => some '"'
  | '\\' => some '\\'
  | '/' => some '/'
  | 'b' => some '\x08'
  | 'f' => some '\x0c'
  | 'n' => some '\n'
  | 'r' => some '\r'
  | 't' => some '\t'
  | _ => none

/-- A piece of a written text: a character, or an escaped UTF-16 unit. -/
inductive Piece where
  | char (c : Char)
  | unit (n : Nat)

/-- The pieces of a text up to its closing quote, and what follows the quote. -/
def pieces? : List Char → Option (List Piece × List Char)
  | [] => none
  | '"' :: rest => some ([], rest)
  | '\\' :: 'u' :: a :: b :: c :: d :: rest => do
    let n ← hex4? a b c d
    let (ps, rest) ← pieces? rest
    return (.unit n :: ps, rest)
  | '\\' :: e :: rest => do
    let c ← escaped? e
    let (ps, rest) ← pieces? rest
    return (.char c :: ps, rest)
  | c :: rest => do
    guard (0x20 ≤ c.toNat)
    let (ps, rest) ← pieces? rest
    return (.char c :: ps, rest)

/-- Whether a UTF-16 unit is the first of a pair. -/
def isHighSurrogate (n : Nat) : Bool := 0xD800 ≤ n && n < 0xDC00

/-- Whether a UTF-16 unit is the second of a pair. -/
def isLowSurrogate (n : Nat) : Bool := 0xDC00 ≤ n && n < 0xE000

/-- The characters that pieces stand for, if every surrogate is paired. -/
def join? : List Piece → Option (List Char)
  | [] => some []
  | .char c :: ps => (join? ps).map (c :: ·)
  | .unit n :: .unit m :: ps =>
    if isHighSurrogate n then
      if isLowSurrogate m then
        (join? ps).map (Char.ofNat (0x10000 + (n - 0xD800) * 0x400 + (m - 0xDC00)) :: ·)
      else none
    else if isLowSurrogate n then none
    else (join? (.unit m :: ps)).map (Char.ofNat n :: ·)
  | .unit n :: ps =>
    if isHighSurrogate n || isLowSurrogate n then none
    else (join? ps).map (Char.ofNat n :: ·)

/-- A text from behind its opening quote, and what follows it. -/
def readText? (cs : List Char) : Option (Option String × List Char) := do
  let (ps, rest) ← pieces? cs
  return ((join? ps).map String.ofList, rest)

/-! ## Numbers -/

/-- Digits put behind a number as long as it stays below 2^64, and the digits left over. -/
def keepDigits : Nat → List Char → Nat × List Char
  | n, [] => (n, [])
  | n, c :: rest =>
    let next := 10 * n + digitValue c
    if next < Nat.pow 2 64 then keepDigits next rest else (n, c :: rest)

/-- The number written as a sign, whole digits, fraction digits and a power of ten. A double keeps
    the digits in front that fit in 64 bits; whole digits left over still count as places. -/
def numberOf (negative : Bool) (whole fraction : List Char) (power : Option Int) :
    Option Number :=
  let n : Int := natOfDigits whole
  let value := if negative then -n else n
  if fraction.isEmpty && power.isNone && !(negative && n == 0)
      && -Int.pow 2 63 ≤ value && value < Int.pow 2 64 then
    some (.whole value)
  else
    let (kept, places) := keepDigits 0 whole
    let (kept, unread) := keepDigits kept fraction
    (Double.ofScaled? negative kept
      (power.getD 0 + places.length - (fraction.length - unread.length))).map .double

/-- The exponent of a number, if it has one, and what follows. -/
def readExponent? : List Char → Option (Option Int × List Char)
  | c :: rest =>
    if c = 'e' ∨ c = 'E' then
      let (negative, rest) := match rest with
        | '-' :: rest => (true, rest)
        | '+' :: rest => (false, rest)
        | rest => (false, rest)
      let digits := rest.takeWhile isDigit
      if digits.isEmpty then none
      else
        let n : Int := natOfDigits digits
        some (some (if negative then -n else n), rest.dropWhile isDigit)
    else some (none, c :: rest)
  | [] => some (none, [])

/-- The fraction digits of a number, if it has some, and what follows. -/
def readFraction? : List Char → Option (List Char × List Char)
  | '.' :: rest =>
    let digits := rest.takeWhile isDigit
    if digits.isEmpty then none else some (digits, rest.dropWhile isDigit)
  | rest => some ([], rest)

/-- A number, and what follows it; a zero in front stands alone. -/
def readNumber? (cs : List Char) : Option (Option Number × List Char) := do
  let (negative, cs) := match cs with
    | '-' :: rest => (true, rest)
    | rest => (false, rest)
  let whole := match cs with
    | '0' :: _ => ['0']
    | _ => cs.takeWhile isDigit
  guard !whole.isEmpty
  let (fraction, rest) ← readFraction? (cs.drop whole.length)
  let (power, rest) ← readExponent? rest
  return (numberOf negative whole fraction power, rest)

/-! ## Values -/

/-- The four characters that may stand between the parts of a value. -/
def isSpace (c : Char) : Bool := c == ' ' || c == '\n' || c == '\t' || c == '\r'

/-- The characters from the first that is no space. -/
def skipSpace (cs : List Char) : List Char := cs.dropWhile isSpace

mutual

/-- A value after any space, and what follows it. -/
def readValue? : Nat → List Char → Option (Raw × List Char)
  | 0, _ => none
  | fuel + 1, cs =>
    match skipSpace cs with
    | 'n' :: 'u' :: 'l' :: 'l' :: rest => some (.null, rest)
    | 't' :: 'r' :: 'u' :: 'e' :: rest => some (.bool true, rest)
    | 'f' :: 'a' :: 'l' :: 's' :: 'e' :: rest => some (.bool false, rest)
    | '"' :: rest => (readText? rest).map fun (s, rest) => (.text s, rest)
    | '[' :: rest =>
      match skipSpace rest with
      | ']' :: rest => some (.array [], rest)
      | rest => (readItems? fuel rest).map fun (vs, rest) => (.array vs, rest)
    | '{' :: rest =>
      match skipSpace rest with
      | '}' :: rest => some (.object [], rest)
      | rest => (readFields? fuel rest).map fun (fs, rest) => (.object fs, rest)
    | rest => (readNumber? rest).map fun (n, rest) => (.number n, rest)

/-- At least one value, then the end of the array, and what follows it. -/
def readItems? : Nat → List Char → Option (List Raw × List Char)
  | 0, _ => none
  | fuel + 1, cs => do
    let (v, rest) ← readValue? fuel cs
    match skipSpace rest with
    | ',' :: rest => do
      let (vs, rest) ← readItems? fuel rest
      return (v :: vs, rest)
    | ']' :: rest => return ([v], rest)
    | _ => none

/-- At least one field, then the end of the object, and what follows it. -/
def readFields? : Nat → List Char → Option (List (Option String × Raw) × List Char)
  | 0, _ => none
  | fuel + 1, cs =>
    match skipSpace cs with
    | '"' :: rest => do
      let (k, rest) ← readText? rest
      match skipSpace rest with
      | ':' :: rest => do
        let (v, rest) ← readValue? fuel rest
        match skipSpace rest with
        | ',' :: rest => do
          let (fs, rest) ← readFields? fuel rest
          return ((k, v) :: fs, rest)
        | '}' :: rest => return ([(k, v)], rest)
        | _ => none
      | _ => none
    | _ => none

end

/-- The value that a text holds, with nothing but space around it. -/
def readChars? (cs : List Char) : Option Raw := do
  let (v, rest) ← readValue? (2 * cs.length + 2) cs
  guard (skipSpace rest).isEmpty
  return v

/-- The value that a text holds. -/
def read? (s : String) : Option Raw := readChars? s.toList

/-! ## Taken for a value -/

mutual

/-- The value, if all its texts and numbers are ones and it nests no deeper than allowed. -/
def toJson? (depth : Nat) : Raw → Option Json
  | .null => some .null
  | .bool b => some (.bool b)
  | .number n => n.map .number
  | .text s => s.map .text
  | .array items =>
    match depth with
    | 0 => none
    | depth + 1 => (toItems? depth items).map .array
  | .object fields =>
    match depth with
    | 0 => none
    | depth + 1 => (toFields? depth fields).map Json.ofFields

/-- The values, if each can be taken for one. -/
def toItems? (depth : Nat) : List Raw → Option (List Json)
  | [] => some []
  | v :: vs => do return (← toJson? depth v) :: (← toItems? depth vs)

/-- The fields, if each key is a text and each value can be taken for one. -/
def toFields? (depth : Nat) : List (Option String × Raw) → Option (List (String × Json))
  | [] => some []
  | (k, v) :: fs => do return ((← k), (← toJson? depth v)) :: (← toFields? depth fs)

end

/-! ## Examples -/

/-- The compact form of the value that a text holds. -/
def recompact? (s : String) : Option String := (read? s).bind fun v => (v.toJson? 127).map compact

example : recompact? " [1, -0.50, \"\\u00e9\\ud83d\\ude80\", null ] "
    = some "[1,-0.5,\"é🚀\",null]" := by decide +kernel
example : (recompact? "[1,]", recompact? "01", recompact? "\"\\ud83d\"", recompact? "[1e400]")
    = (none, none, none, none) := by decide +kernel

end Raw

end Backlog.Json
