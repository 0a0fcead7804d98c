/-
  Configuration documents, read.

  A document is a line for each pair and each header, blank lines and comments between; pairs
  before the first header belong to the document itself.  Arrays, and tables between braces, may run
  over several lines, also around an equals sign, and may have a comma after the last part.  They
  nest to a limited depth, and a key has no more parts than that.

  The readers of values take fuel; a step consumes a character or is one of two calls around it, so
  twice the length of the document is enough, and `readDocument?` gives that.
-/
import Backlog.Toml.Text
import Backlog.Toml.Value

namespace Backlog.Toml

/-! ## Space -/

/-- What follows blank space, line ends and comments; the flag says that a comment has begun. -/
def skipGap : Bool → List Char → List Char
  | _, [] => []
  | true, c :: rest => skipGap (c ≠ '\n') rest
  | false, c :: rest =>
    if isGap c then skipGap false rest
    else if c = '#' then skipGap true rest
    else c :: rest

/-- What follows a line with nothing on it but blank space and a comment. -/
def endLine? (cs : List Char) : Option (List Char) :=
  match cs.dropWhile isBlank with
  | [] => some []
  | '\n' :: rest | '\r' :: '\n' :: rest => some rest
  | '#' :: rest => some (rest.dropWhile (· ≠ '\n'))
  | _ => none

/-! ## Keys -/

/-- How deep arrays and tables between braces nest, and how many parts a key has at most. -/
def maxDepth : Nat := 80

/-- The parts of a key with dots, at most so many, and what follows it and any blank space. -/
def readKey? : Nat → List Char → Option (List String × List Char)
  | 0, _ => none
  | limit + 1, cs => do
    let (key, rest) ← readSimpleKey? (cs.dropWhile isBlank)
    match rest.dropWhile isBlank with
    | '.' :: rest => do
      let (keys, rest) ← readKey? limit rest
      return (key :: keys, rest)
    | rest => return ([key], rest)

/-- The path and the last part of a key. -/
def splitKey (keys : List String) : List String × String := (keys.dropLast, keys.getLastD "")

/-! ## Values -/

mutual

/-- A value, and what follows it. -/
def readValue? (fuel depth : Nat) (cs : List Char) : Option (Value × List Char) :=
  match fuel with
  | 0 => none
  | fuel + 1 =>
    match cs with
    | '"' :: _ | '\'' :: _ => (readText? cs).map fun (s, rest) => (.scalar (.text s), rest)
    | '[' :: rest => do
      guard (0 < depth)
      let (items, rest) ← readItems? fuel (depth - 1) rest
      return (.array items, rest)
    | '{' :: rest => do
      guard (0 < depth)
      let (pairs, rest) ← readPairs? fuel (depth - 1) rest
      return (.table .braces (← addPairs [] pairs), rest)
    | _ => (readScalar? cs).map fun (s, rest) => (.scalar s, rest)
termination_by structural fuel

/-- The parts of an array up to its end, and what follows it. -/
def readItems? (fuel depth : Nat) (cs : List Char) : Option (List Value × List Char) :=
  match fuel with
  | 0 => none
  | fuel + 1 =>
    match skipGap false cs with
    | ']' :: rest => some ([], rest)
    | cs => do
      let (item, rest) ← readValue? fuel depth cs
      match skipGap false rest with
      | ',' :: rest => do
        let (items, rest) ← readItems? fuel depth rest
        return (item :: items, rest)
      | ']' :: rest => return ([item], rest)
      | _ => none
termination_by structural fuel

/-- The pairs of a table between braces up to its end, and what follows it. -/
def readPairs? (fuel depth : Nat) (cs : List Char) : Option (List Pair × List Char) :=
  match fuel with
  | 0 => none
  | fuel + 1 =>
    match skipGap false cs with
    | '}' :: rest => some ([], rest)
    | cs => do
      let (pair, rest) ← readPair? fuel depth (skipGap false) cs
      match skipGap false rest with
      | ',' :: rest => do
        let (pairs, rest) ← readPairs? fuel depth rest
        return (pair :: pairs, rest)
      | '}' :: rest => return ([pair], rest)
      | _ => none
termination_by structural fuel

/-- A pair, given how to skip the space around its equals sign, and what follows it. -/
def readPair? (fuel depth : Nat) (skip : List Char → List Char) (cs : List Char) :
    Option (Pair × List Char) :=
  match fuel with
  | 0 => none
  | fuel + 1 => do
    let (keys, rest) ← readKey? maxDepth cs
    let (path, key) := splitKey keys
    let rest ← after? '=' (skip rest)
    let (value, rest) ← readValue? fuel depth (skip rest)
    return (⟨path, key, value⟩, rest)
termination_by structural fuel

end

/-! ## Documents -/

/-- A header as a table without pairs, and what follows its line. -/
def readHeader? (cs : List Char) : Option (Section × List Char) := do
  let (repeated, rest) ← match cs with
    | '[' :: '[' :: rest => some (true, rest)
    | '[' :: rest => some (false, rest)
    | _ => none
  let (keys, rest) ← readKey? maxDepth rest
  let (path, key) := splitKey keys
  let rest ← after? ']' rest
  let rest ← if repeated then after? ']' rest else some rest
  return (⟨path, key, repeated, []⟩, ← endLine? rest)

/-- The pairs before the first header, and the tables with headers. -/
def readLinesOf? : Nat → List Char → Option (List Pair × List Section)
  | 0, _ => none
  | fuel + 1, cs =>
    match skipGap false cs with
    | [] => some ([], [])
    | '[' :: rest => do
      let (header, rest) ← readHeader? ('[' :: rest)
      let (pairs, sections) ← readLinesOf? fuel rest
      return ([], { header with pairs } :: sections)
    | cs => do
      let (pair, rest) ← readPair? (2 * cs.length + 2) maxDepth (List.dropWhile isBlank) cs
      let (pairs, sections) ← readLinesOf? fuel (← endLine? rest)
      return (pair :: pairs, sections)

/-- The document that a text holds. -/
def readDocument? (text : String) : Option Entries := do
  let cs := match text.toList with
    | '\uFEFF' :: rest => rest
    | cs => cs
  guard (isClean cs)
  let (pairs, sections) ← readLinesOf? (cs.length + 1) cs
  assemble? pairs sections

/-! ## Examples -/

/-- Whether a text holds a document. -/
def isDocument (text : String) : Bool := (readDocument? text).isSome

example : isDocument "a . \"b c\" = [1, # one\n 2,]\r\n[x]\ny = \x7b z = true, \x7d # end" = true := by
  decide +kernel
example : isDocument "x = \x7b a.b # key\n = # value\n 1 \x7d" = true := by decide +kernel
example : ["a = 1 b = 2", "a =\n1", "[a] b = 1", "a = 1\na = 2", "= 1", "[a.]"].map isDocument
    = [false, false, false, false, false, false] := by decide +kernel

end Backlog.Toml
