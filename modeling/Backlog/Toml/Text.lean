/-
  Texts and keys of a configuration document.

  A text stands in double quotes, where a backslash escapes, or in single quotes, where nothing
  does; three quotes in a row let it run over several lines.  Writing takes the first of these forms
  in which nothing needs an escape, and double quotes with escapes if there is none.

  The readers take for granted that the document holds no control characters but tabs and line
  ends, which is checked for the document as a whole.
-/
import Backlog.Json.Raw

namespace Backlog.Toml

/-! ## Character classes -/

/-- Blank space within a line. -/
def isBlank (c : Char) : Bool := c == ' ' || c == '\t'

/-- Blank space or a part of a line end. -/
def isGap (c : Char) : Bool := isBlank c || c == '\n' || c == '\r'

/-- A character of a key without quotes. -/
def isBare (c : Char) : Bool := c.isAlphanum || c == '_' || c == '-'

/-- Whether a document may hold a character at all. -/
def isAllowed (c : Char) : Bool :=
  c == '\t' || c == '\n' || c == '\r' || (0x20 ≤ c.toNat && c.toNat ≠ 0x7F)

/-- Whether a document holds only characters that it may, and each carriage return ends a line. -/
def isClean : List Char → Bool
  | [] => true
  | '\r' :: '\n' :: rest => isClean rest
  | c :: rest => isAllowed c && c ≠ '\r' && isClean rest

/-! ## Escapes -/

/-- The character that a one-letter escape stands for. -/
def escaped? : Char → Option Char
  | '"' => some '"'
  | '\\' => some '\\'
  | 'b' => some '\x08'
  | 'e' => some '\x1b'
  | 'f' => some '\x0c'
  | 'n' => some '\n'
  | 'r' => some '\r'
  | 't' => some '\t'
  | _ => none

/-- The character whose number is written in hexadecimal digits. -/
def charOfHex? (digits : List Char) : Option Char := do
  let values ← digits.mapM Json.Raw.hexValue?
  let n := values.foldl (fun n d => 16 * n + d) 0
  if n < 0xD800 ∨ (0xE000 ≤ n ∧ n < 0x110000) then some (Char.ofNat n) else none

/-- A character in front of what a reader gives. -/
def consTo (c : Option Char) (read : Option (List Char × List Char)) :
    Option (List Char × List Char) := do
  let c ← c
  let (cs, rest) ← read
  return (c :: cs, rest)

/-! ## Reading -/

/-- A text in double quotes from behind the first, and what follows the last. -/
def readQuoted? : List Char → Option (List Char × List Char)
  | [] => none
  | '"' :: rest => some ([], rest)
  | '\\' :: 'x' :: a :: b :: rest => consTo (charOfHex? [a, b]) (readQuoted? rest)
  | '\\' :: 'u' :: a :: b :: c :: d :: rest => consTo (charOfHex? [a, b, c, d]) (readQuoted? rest)
  | '\\' :: 'U' :: a :: b :: c :: d :: e :: f :: g :: h :: rest =>
    consTo (charOfHex? [a, b, c, d, e, f, g, h]) (readQuoted? rest)
  | '\\' :: c :: rest => consTo (escaped? c) (readQuoted? rest)
  | c :: rest => if c = '\n' ∨ c = '\r' then none else consTo (some c) (readQuoted? rest)

/-- Whether a line ends after any blank space. -/
def endsLine (cs : List Char) : Bool :=
  match cs.dropWhile isBlank with
  | '\n' :: _ | '\r' :: '\n' :: _ => true
  | _ => false

/-- A text between three double quotes each, from behind the first three, and what follows the
    last. A backslash at the end of a line joins the text before it to the next character that is
    no blank space; up to two quotes may stand before the last three. -/
def readLines? : Bool → List Char → Option (List Char × List Char)
  | _, [] => none
  | _, '"' :: '"' :: '"' :: '"' :: '"' :: rest => some (['"', '"'], rest)
  | _, '"' :: '"' :: '"' :: '"' :: rest => some (['"'], rest)
  | _, '"' :: '"' :: '"' :: rest => some ([], rest)
  | _, '\\' :: 'x' :: a :: b :: rest => consTo (charOfHex? [a, b]) (readLines? false rest)
  | _, '\\' :: 'u' :: a :: b :: c :: d :: rest =>
    consTo (charOfHex? [a, b, c, d]) (readLines? false rest)
  | _, '\\' :: 'U' :: a :: b :: c :: d :: e :: f :: g :: h :: rest =>
    consTo (charOfHex? [a, b, c, d, e, f, g, h]) (readLines? false rest)
  | _, '\\' :: c :: rest =>
    if isGap c then if endsLine (c :: rest) then readLines? true rest else none
    else consTo (escaped? c) (readLines? false rest)
  | joining, c :: rest =>
    if joining && isGap c then readLines? true rest else consTo (some c) (readLines? false rest)

/-- A text in single quotes from behind the first, and what follows the last. -/
def readLiteral? : List Char → Option (List Char × List Char)
  | [] => none
  | '\'' :: rest => some ([], rest)
  | c :: rest => if c = '\n' ∨ c = '\r' then none else consTo (some c) (readLiteral? rest)

/-- A text between three single quotes each, from behind the first three, and what follows the
    last; up to two quotes may stand before these. -/
def readLiteralLines? : List Char → Option (List Char × List Char)
  | [] => none
  | '\'' :: '\'' :: '\'' :: '\'' :: '\'' :: rest => some (['\'', '\''], rest)
  | '\'' :: '\'' :: '\'' :: '\'' :: rest => some (['\''], rest)
  | '\'' :: '\'' :: '\'' :: rest => some ([], rest)
  | c :: rest => consTo (some c) (readLiteralLines? rest)

/-- The characters after a line end that stands right at the front. -/
def dropLineEnd : List Char → List Char
  | '\n' :: rest => rest
  | '\r' :: '\n' :: rest => rest
  | cs => cs

/-- A text in any of its four forms, and what follows it. -/
def readText? (cs : List Char) : Option (String × List Char) :=
  let read := match cs with
    | '"' :: '"' :: '"' :: rest => readLines? false (dropLineEnd rest)
    | '"' :: rest => readQuoted? rest
    | '\'' :: '\'' :: '\'' :: rest => readLiteralLines? (dropLineEnd rest)
    | '\'' :: rest => readLiteral? rest
    | _ => none
  read.map fun (s, rest) => (String.ofList s, rest)

/-- A key without dots, and what follows it. -/
def readSimpleKey? (cs : List Char) : Option (String × List Char) :=
  match cs with
  | '"' :: rest => (readQuoted? rest).map fun (s, rest) => (String.ofList s, rest)
  | '\'' :: rest => (readLiteral? rest).map fun (s, rest) => (String.ofList s, rest)
  | _ =>
    let key := cs.takeWhile isBare
    if key.isEmpty then none else some (String.ofList key, cs.drop key.length)

/-! ## Writing -/

/-- The longest run of a character. -/
def longestRun (mark : Char) (cs : List Char) : Nat :=
  (cs.foldl (fun (longest, run) c =>
    let run := if c = mark then run + 1 else 0
    (max longest run, run)) (0, 0)).1

/-- Whether a character can be written as an escape only. -/
def needsEscape (c : Char) : Bool := !isAllowed c || c == '\r'

/-- A character in double quotes, tabs and the characters that need it escaped. -/
def escapeChar (c : Char) : List Char :=
  if c = '\x08' then ['\\', 'b']
  else if c = '\t' then ['\\', 't']
  else if c = '\x0c' then ['\\', 'f']
  else if c = '\r' then ['\\', 'r']
  else if c = '\\' then ['\\', '\\']
  else if needsEscape c then
    ['\\', 'u', '0', '0', (Json.hexDigit (c.toNat / 16)).toUpper, (Json.hexDigit c.toNat).toUpper]
  else [c]

/-- A text in double quotes on one line. -/
def quoted (cs : List Char) : List Char :=
  '"' :: (cs.flatMap fun c =>
    if c = '"' then ['\\', '"'] else if c = '\n' then ['\\', 'n'] else escapeChar c) ++ ['"']

/-- The characters of a text between three double quotes, given how many quotes came just before;
    the third of a run is escaped. -/
def escapeLines : Nat → List Char → List Char
  | _, [] => []
  | run, c :: rest =>
    if c = '"' then
      if run = 2 then '\\' :: '"' :: escapeLines 0 rest else '"' :: escapeLines (run + 1) rest
    else escapeChar c ++ escapeLines 0 rest

/-- What stands between the opening quotes and a text that has several lines. -/
def opening (cs : List Char) : List Char := if cs.contains '\n' then ['\n'] else []

/-- A text between three double quotes each. -/
def quotedLines (cs : List Char) : List Char :=
  ['"', '"', '"'] ++ opening cs ++ escapeLines 0 cs ++ ['"', '"', '"']

/-- A text in single quotes. -/
def literal (cs : List Char) : List Char := '\'' :: cs ++ ['\'']

/-- A text between three single quotes each. -/
def literalLines (cs : List Char) : List Char :=
  ['\'', '\'', '\''] ++ opening cs ++ cs ++ ['\'', '\'', '\'']

/-- A written text. -/
def renderText (s : String) : String :=
  let cs := s.toList
  let lines := cs.contains '\n'
  let controls := cs.any needsEscape
  let backslash := cs.contains '\\'
  let doubles := longestRun '"' cs
  let singles := longestRun '\'' cs
  String.ofList <|
    if !controls && !backslash && doubles == 0 && !lines then quoted cs
    else if !controls && singles == 0 && !lines then literal cs
    else if !controls && !backslash && doubles ≤ 2 then quotedLines cs
    else if !controls && singles ≤ 2 then literalLines cs
    else if lines then quotedLines cs
    else quoted cs

/-- A written key. -/
def renderKey (s : String) : String :=
  let cs := s.toList
  let controls := cs.any fun c => needsEscape c || c == '\n'
  String.ofList <|
    if !cs.isEmpty && cs.all isBare then cs
    else if !controls && !cs.contains '\\' && !cs.contains '"' then quoted cs
    else if !controls && !cs.contains '\'' then literal cs
    else quoted cs

/-! ## Examples -/

/-- A written text, read. -/
def reread? (s : String) : Option (String × List Char) := readText? (renderText s).toList

example : (readText? "\"\"\"a\\\n   b\"\"\"".toList).map (·.1) = some "ab" := by decide +kernel
example : (readText? "'''it''''s''' x".toList) = some ("it'", "s''' x".toList) := by decide +kernel
example : [renderText "plain", renderText "a\"b", renderText "it's \"so\""]
    = ["\"plain\"", "'a\"b'", "\"\"\"it's \"so\"\"\"\""] := by decide +kernel
example : reread? "x\\\"\"\"'''\n\u007f" = some ("x\\\"\"\"'''\n\u007f", []) := by decide +kernel
example : [renderKey "a-b", renderKey "", renderKey "a b"] = ["a-b", "\"\"", "\"a b\""] := by
  decide +kernel

end Backlog.Toml
