/-
  Time stamps.

  A stamp is a moment in UTC to the nanosecond: whole seconds since 1970 and the nanoseconds in the
  second, those of a leap second counted on from 10^9.  It is written in RFC 3339 with a Z and the
  fewest of 0, 3, 6 or 9 fraction digits that are exact.  Reading is wider: parts may have one digit
  where two are usual, blank space may stand around the separators, and the offset may be any.
-/
import Backlog.Text.Blank
import Backlog.Text.Digits
import Backlog.Time.Calendar

namespace Backlog

/-- A moment in UTC. -/
structure Stamp where
  /-- Whole seconds since 1970-01-01T00:00:00Z. -/
  seconds : Int
  /-- Nanoseconds in the second, from 10^9 on in a leap second. -/
  nanos : Nat
deriving DecidableEq, Repr

namespace Stamp

instance : Inhabited Stamp := ⟨⟨0, 0⟩⟩

/-! ## Order -/

/-- Whether a moment lies before another. -/
def before (a b : Stamp) : Bool :=
  a.seconds < b.seconds || (a.seconds == b.seconds && a.nanos < b.nanos)

theorem before_irrefl (a : Stamp) : a.before a = false := by simp [before]

theorem before_trans {a b c : Stamp} (h : a.before b = true) (h' : b.before c = true) :
    a.before c = true := by
  simp [before] at *
  omega

theorem before_asymm {a b : Stamp} (h : a.before b = true) : b.before a = false := by
  simp [before] at *
  omega

/-- Of two moments neither of which lies before the other there is only one. -/
theorem eq_of_not_before {a b : Stamp} (h : a.before b = false) (h' : b.before a = false) :
    a = b := by
  obtain ⟨s, n⟩ := a
  obtain ⟨t, m⟩ := b
  simp [before] at *
  omega

/-! ## Writing -/

/-- The fraction of a second, with the fewest of 0, 3, 6 or 9 digits that are exact. -/
def renderFraction (nanos : Nat) : String :=
  if nanos = 0 then ""
  else if nanos % 1000000 = 0 then "." ++ Text.zeroPadded 3 (nanos / 1000000)
  else if nanos % 1000 = 0 then "." ++ Text.zeroPadded 6 (nanos / 1000)
  else "." ++ Text.zeroPadded 9 nanos

/-- A year: four digits, or a sign and at least four outside 0 to 9999. -/
def renderYear (year : Int) : String :=
  if 0 ≤ year ∧ year ≤ 9999 then Text.zeroPadded 4 year.toNat
  else (if year < 0 then "-" else "+") ++ Text.zeroPadded 4 year.natAbs

/-- The written form of a stamp. -/
def render (t : Stamp) : String :=
  let date := Time.Date.ofDays (t.seconds / 86400)
  let second := (t.seconds % 86400).toNat
  let (leap, nanos) := if t.nanos < 1000000000 then (0, t.nanos) else (1, t.nanos - 1000000000)
  renderYear date.year ++ "-" ++ Text.zeroPadded 2 date.month ++ "-"
    ++ Text.zeroPadded 2 date.day ++ "T" ++ Text.zeroPadded 2 (second / 3600) ++ ":"
    ++ Text.zeroPadded 2 (second / 60 % 60) ++ ":" ++ Text.zeroPadded 2 (second % 60 + leap)
    ++ renderFraction nanos ++ "Z"

/-! ## Reading -/

open Text in
/-- A number of at least one and at most `most` digits after any blank space, and what follows. -/
def readNumber? (most : Nat) (cs : List Char) : Option (Nat × List Char) := do
  let cs := trimStart cs
  let digits := (cs.take most).takeWhile isDigit
  guard !digits.isEmpty
  return (natOfDigits digits, cs.drop digits.length)

open Text in
/-- A year of at most four digits, or of any number of digits after a sign. -/
def readYear? (cs : List Char) : Option (Int × List Char) := do
  match trimStart cs with
  | '-' :: rest => do
    guard ((rest.take 1).all isDigit)
    let (n, rest) ← readNumber? rest.length rest
    return (-(n : Int), rest)
  | '+' :: rest => do
    guard ((rest.take 1).all isDigit)
    let (n, rest) ← readNumber? rest.length rest
    return ((n : Int), rest)
  | rest => do
    let (n, rest) ← readNumber? 4 rest
    return ((n : Int), rest)

/-- A separator after any blank space. -/
def readMark? (mark : Char) (cs : List Char) : Option (List Char) :=
  match Text.trimStart cs with
  | c :: rest => if c = mark then some rest else none
  | [] => none

/-- The nanoseconds of a fraction, none without a point; digits after the ninth do not count. -/
def readFraction? : List Char → Option (Nat × List Char)
  | '.' :: rest => do
    let digits := rest.takeWhile Text.isDigit
    guard !digits.isEmpty
    let kept := digits.take 9
    return (Text.natOfDigits kept * Nat.pow 10 (9 - kept.length), rest.drop digits.length)
  | rest => some (0, rest)

/-- Two digits, and what follows them. -/
def readTwoDigits? : List Char → Option (Nat × List Char)
  | a :: b :: rest =>
    if Text.isDigit a && Text.isDigit b then some (Text.natOfDigits [a, b], rest) else none
  | _ => none

/-- The seconds that an offset is ahead of UTC: Z or UTC, or a sign, hours and minutes with colons
    or blank space between or not. -/
def readOffset? (cs : List Char) : Option (Int × List Char) :=
  let signed (negative : Bool) (cs : List Char) : Option (Int × List Char) := do
    let (hours, cs) ← readTwoDigits? cs
    let cs := cs.dropWhile fun c => c == ':' || Text.isBlankChar c
    let (minutes, rest) ← readTwoDigits? cs
    guard (minutes < 60)
    let ahead : Int := hours * 3600 + minutes * 60
    return (if negative then -ahead else ahead, rest)
  match Text.trimStart cs with
  | 'Z' :: rest => some (0, rest)
  | 'z' :: rest => some (0, rest)
  | '+' :: rest => signed false rest
  | '-' :: rest => signed true rest
  | '\u2212' :: rest => signed true rest
  | a :: b :: c :: rest =>
    if [a, b, c].map Char.toLower = ['u', 't', 'c'] then some (0, rest) else none
  | _ => none

/-- The years that stamps can lie in. -/
def inRange (year : Int) : Bool := -262143 ≤ year && year ≤ 262142

/-- The stamp that a text holds. -/
def read? (text : String) : Option Stamp := do
  let (year, cs) ← readYear? text.toList
  let cs ← readMark? '-' cs
  let (month, cs) ← readNumber? 2 cs
  let cs ← readMark? '-' cs
  let (day, cs) ← readNumber? 2 cs
  let date : Time.Date := ⟨year, month, day⟩
  guard (inRange year && date.isValid)
  let cs ← match cs with
    | 'T' :: rest | 't' :: rest | ' ' :: rest => some rest
    | _ => none
  let (hour, cs) ← readNumber? 2 cs
  let cs ← readMark? ':' cs
  let (minute, cs) ← readNumber? 2 cs
  let cs ← readMark? ':' cs
  let (second, cs) ← readNumber? 2 cs
  guard (hour < 24 && minute < 60 && second ≤ 60)
  let (nanos, cs) ← readFraction? cs
  let (ahead, cs) ← readOffset? cs
  guard (ahead.natAbs < 86400 && cs.all Text.isBlankChar)
  let seconds := date.toDays * 86400 + hour * 3600 + minute * 60 + (min second 59 : Nat) - ahead
  guard (inRange (Time.Date.ofDays (seconds / 86400)).year)
  return ⟨seconds, if second = 60 then nanos + 1000000000 else nanos⟩

/-! ## Examples -/

/-- The written form of the stamp that a text holds. -/
def written? (text : String) : Option String := (read? text).map render

example : written? "2025-02-28T23:59:59.123456789+05:30" = some "2025-02-28T18:29:59.123456789Z" := by
  decide +kernel
example : written? "1969-12-31 23:59:60.5z" = some "1969-12-31T23:59:60.500Z" := by decide +kernel
example : written? "2020-1-1T9:0:0-0930" = some "2020-01-01T18:30:00Z" := by decide +kernel
example : [written? "2020-01-01T09:00Z", written? "2020-01-01T09:00:00", written? "2020-01-01T09:00:00.Z"]
    = [none, none, none] := by decide +kernel

end Stamp

end Backlog
