/-
  JSON values and their two written forms.

  A number is a whole number from -2^63 to 2^64 - 1 or a double; an object is its fields in the
  order they are written (`Json.ofFields` puts the fields of a read object in key order, the last
  of equal keys winning).  `compact` is one line without blanks, `pretty` indents by two spaces.
-/
import Backlog.Dict
import Backlog.Json.Double

namespace Backlog.Json

/-! ## Values -/

/-- A JSON number. -/
inductive Number where
  | whole (n : Int)
  | double (d : Double)
deriving DecidableEq, Repr

end Backlog.Json

namespace Backlog

/-- A JSON value. -/
inductive Json where
  | null
  | bool (b : Bool)
  | number (n : Json.Number)
  | text (s : String)
  | array (items : List Json)
  | object (fields : List (String × Json))
deriving Repr

namespace Json

instance : Inhabited Json := ⟨.null⟩

mutual

/-- Equality of values can be decided. -/
def decEq : (a b : Json) → Decidable (a = b)
  | .null, .null => .isTrue rfl
  | .bool a, .bool b => if h : a = b then .isTrue (h ▸ rfl) else .isFalse (by simp [h])
  | .number a, .number b => if h : a = b then .isTrue (h ▸ rfl) else .isFalse (by simp [h])
  | .text a, .text b => if h : a = b then .isTrue (h ▸ rfl) else .isFalse (by simp [h])
  | .array a, .array b =>
    match decEqItems a b with
    | .isTrue h => .isTrue (h ▸ rfl)
    | .isFalse h => .isFalse (by simp [h])
  | .object a, .object b =>
    match decEqFields a b with
    | .isTrue h => .isTrue (h ▸ rfl)
    | .isFalse h => .isFalse (by simp [h])
  | .null, .bool _ | .null, .number _ | .null, .text _ | .null, .array _ | .null, .object _
  | .bool _, .null | .bool _, .number _ | .bool _, .text _ | .bool _, .array _
  | .bool _, .object _
  | .number _, .null | .number _, .bool _ | .number _, .text _ | .number _, .array _
  | .number _, .object _
  | .text _, .null | .text _, .bool _ | .text _, .number _ | .text _, .array _
  | .text _, .object _
  | .array _, .null | .array _, .bool _ | .array _, .number _ | .array _, .text _
  | .array _, .object _
  | .object _, .null | .object _, .bool _ | .object _, .number _ | .object _, .text _
  | .object _, .array _ => .isFalse (by simp)

/-- Equality of lists of values can be decided. -/
def decEqItems : (a b : List Json) → Decidable (a = b)
  | [], [] => .isTrue rfl
  | [], _ :: _ | _ :: _, [] => .isFalse (by simp)
  | a :: as, b :: bs =>
    match decEq a b, decEqItems as bs with
    | .isTrue h, .isTrue hs => .isTrue (h ▸ hs ▸ rfl)
    | .isFalse h, _ => .isFalse (by simp [h])
    | _, .isFalse h => .isFalse (by simp [h])

/-- Equality of lists of fields can be decided. -/
def decEqFields : (a b : List (String × Json)) → Decidable (a = b)
  | [], [] => .isTrue rfl
  | [], _ :: _ | _ :: _, [] => .isFalse (by simp)
  | (j, a) :: as, (k, b) :: bs =>
    if h : j = k then
      match decEq a b, decEqFields as bs with
      | .isTrue hv, .isTrue hs => .isTrue (h ▸ hv ▸ hs ▸ rfl)
      | .isFalse hv, _ => .isFalse (by simp [hv])
      | _, .isFalse hs => .isFalse (by simp [hs])
    else .isFalse (by simp [h])

end

instance : DecidableEq Json := decEq

/-- The object with the given fields in key order; of equal keys the last wins. -/
def ofFields (fields : List (String × Json)) : Json := .object (Dict.ofList fields).entries

/-- What kind of value it is, in a word. -/
def kind : Json → String
  | .null => "null"
  | .bool _ => "bool"
  | .number _ => "number"
  | .text _ => "string"
  | .array _ => "array"
  | .object _ => "object"

/-- A whole number. -/
def int (n : Int) : Json := .number (.whole n)

/-- A natural number. -/
def nat (n : Nat) : Json := .int n

/-- A text, or null for none. -/
def optText (s : Option String) : Json := (s.map Json.text).getD .null

/-- A list of texts. -/
def texts (ss : List String) : Json := .array (ss.map .text)

/-! ## Written form -/

/-- A hexadecimal digit in lower case. -/
def hexDigit (n : Nat) : Char := Nat.digitChar (n % 16)

/-- A character inside a written text: quotes, backslashes and control characters are escaped. -/
def escapeChar (c : Char) : List Char :=
  if c = '"' then ['\\', '"']
  else if c = '\\' then ['\\', '\\']
  else if c = '\n' then ['\\', 'n']
  else if c = '\t' then ['\\', 't']
  else if c = '\r' then ['\\', 'r']
  else if c = '\x08' then ['\\', 'b']
  else if c = '\x0c' then ['\\', 'f']
  else if c.toNat < 0x20 then ['\\', 'u', '0', '0', hexDigit (c.toNat / 16), hexDigit c.toNat]
  else [c]

/-- A text in quotes. -/
def quote (s : String) : List Char := '"' :: (s.toList.flatMap escapeChar ++ ['"'])

/-- A written number. -/
def Number.render : Number → List Char
  | .whole n => (toString n).toList
  | .double d => d.render

mutual

/-- The value on one line without blanks. -/
def compactChars : Json → List Char
  | .null => "null".toList
  | .bool b => if b then "true".toList else "false".toList
  | .number n => n.render
  | .text s => quote s
  | .array items => '[' :: (compactItems items ++ [']'])
  | .object fields => '{' :: (compactFields fields ++ ['}'])

/-- Values with commas between them. -/
def compactItems : List Json → List Char
  | [] => []
  | [v] => compactChars v
  | v :: w :: vs => compactChars v ++ ',' :: compactItems (w :: vs)

/-- Fields with commas between them. -/
def compactFields : List (String × Json) → List Char
  | [] => []
  | [(k, v)] => quote k ++ ':' :: compactChars v
  | (k, v) :: f :: fs => quote k ++ ':' :: (compactChars v ++ ',' :: compactFields (f :: fs))

end

/-- A new line with an indentation. -/
def newLine (indent : Nat) : List Char := '\n' :: List.replicate indent ' '

mutual

/-- The value over several lines, those after the first indented. -/
def prettyChars (indent : Nat) : Json → List Char
  | .array [] => ['[', ']']
  | .array (v :: vs) =>
    '[' :: (prettyItems (indent + 2) (v :: vs) ++ (newLine indent ++ [']']))
  | .object [] => ['{', '}']
  | .object (f :: fs) =>
    '{' :: (prettyFields (indent + 2) (f :: fs) ++ (newLine indent ++ ['}']))
  | .null => compactChars .null
  | .bool b => compactChars (.bool b)
  | .number n => compactChars (.number n)
  | .text s => compactChars (.text s)

/-- Values a line each, with commas between them. -/
def prettyItems (indent : Nat) : List Json → List Char
  | [] => []
  | [v] => newLine indent ++ prettyChars indent v
  | v :: w :: vs =>
    newLine indent ++ (prettyChars indent v ++ ',' :: prettyItems indent (w :: vs))

/-- Fields a line each, with commas between them. -/
def prettyFields (indent : Nat) : List (String × Json) → List Char
  | [] => []
  | [(k, v)] => newLine indent ++ (quote k ++ ':' :: ' ' :: prettyChars indent v)
  | (k, v) :: f :: fs =>
    newLine indent ++
      (quote k ++ ':' :: ' ' :: (prettyChars indent v ++ ',' :: prettyFields indent (f :: fs)))

end

/-- The value on one line. -/
def compact (v : Json) : String := String.ofList (compactChars v)

/-- The value over several lines, indented by two spaces. -/
def pretty (v : Json) : String := String.ofList (prettyChars 0 v)

/-! ## Examples -/

example : compact (.object [("b", .array [.int 1, .null]), ("a", .text "\"\n\u0001é")])
    = "\x7b\"b\":[1,null],\"a\":\"\\\"\\n\\u0001é\"\x7d" := by decide +kernel
example : pretty (.object [("a", .array []), ("b", .array [.bool true])])
    = "\x7b\n  \"a\": [],\n  \"b\": [\n    true\n  ]\n\x7d" := by decide +kernel
example : ofFields [("b", .null), ("a", .null), ("b", .bool true)]
    = .object [("a", .null), ("b", .bool true)] := by decide +kernel

end Json

end Backlog
