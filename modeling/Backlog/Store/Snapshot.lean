/-
  The texts of a store.

  The active items are one record with the version of its layout, written over several lines; the
  archive has a line for each item.
-/
import Backlog.Item.Stored

namespace Backlog

/-! ## Damage -/

/-- Why a text is no stored data. -/
inductive Damage where
  | unreadable
  /-- A line of the archive is no item. -/
  | line (number : Nat)
  /-- The layout is one that this program does not know. -/
  | layout (found : Nat)
deriving DecidableEq, Repr

/-- The version of the layout. -/
def layoutVersion : Nat := 1

/-- The damage in words. -/
def Damage.message : Damage → String
  | .unreadable => "unreadable JSON"
  | .line number => s!"line {number}: unreadable JSON"
  | .layout found => s!"unsupported schema version {found} (expected {layoutVersion})"

/-! ## Active items -/

namespace Snapshot

/-- The text of the active items. -/
def render (items : List Item) : String :=
  Json.pretty (.object [("schema_version", .nat layoutVersion),
    ("items", .array (items.map Item.toJson))])

/-- The version and the items that a record holds. -/
def ofRaw? (raw : Json.Raw) : Option (Nat × List Item) := do
  match ← raw.record? ["schema_version", "items"] with
  | [version, items] => do
    let version ← version.bind (Json.Raw.int? 0 (Int.pow 2 32 - 1))
    let items ← items.bind (Json.Raw.list? (Item.read? 2))
    return (version.toNat, items)
  | _ => none

/-- The active items that a text holds. -/
def read (text : String) : Except Damage (List Item) :=
  match (Json.Raw.read? text).bind ofRaw? with
  | none => .error .unreadable
  | some (version, items) =>
    if version = layoutVersion then .ok items else .error (.layout version)

end Snapshot

/-! ## The archive -/

namespace Archive

/-- The line of an item. -/
def line (item : Item) : String := item.toJson.compact ++ "\n"

/-- A byte in front of the lines that follow it; a line end begins a new line. -/
def addByte (byte : UInt8) : List (List UInt8) → List (List UInt8)
  | [] => if byte = 10 then [[], []] else [[byte]]
  | line :: lines => if byte = 10 then [] :: line :: lines else (byte :: line) :: lines

/-- The lines of a file; nothing after the last line end is no line. -/
def lines (bytes : List UInt8) : List (List UInt8) :=
  let all := bytes.foldr addByte [[]]
  if all.getLast? = some [] then all.dropLast else all

end Archive

/-! ## Examples -/

example : Snapshot.render [] = "\x7b\n  \"schema_version\": 1,\n  \"items\": []\n\x7d" := by
  decide +kernel
example : Archive.lines [65, 10, 10, 66] = [[65], [], [66]] := by decide
example : Archive.lines [65, 10] = [[65]] := by decide

end Backlog
