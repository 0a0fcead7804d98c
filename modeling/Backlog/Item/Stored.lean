/-
  The stored form of an item.

  An item is written as an object of its fields in a fixed order, those without a value left out,
  and its extension entries in key order.  Reading takes any record of the same fields: five must be
  given, unknown ones are skipped, and extension values nest as deep as the limit of the text they
  stand in allows.
-/
import Backlog.Item.Basic
import Backlog.Json.Record

namespace Backlog.Item

/-! ## Writing -/

/-- A field that is left out when there is nothing to write. -/
def optionalField (name : String) (value : Option Json) : List (String × Json) :=
  match value with
  | some v => [(name, v)]
  | none => []

/-- The fields of the stored form in order. -/
def fields (item : Item) : List (String × Json) :=
  [("id", .text item.id), ("title", .text item.title), ("status", .text (Text.word item.native)),
    ("priority", .int item.priority)]
  ++ optionalField "description" (item.description.map .text)
  ++ [("tags", .texts item.tags), ("dependencies", .texts item.dependencies),
    ("created_at", .text item.createdAt.render), ("updated_at", .text item.updatedAt.render)]
  ++ optionalField "blocked_reason" (item.blockedReason.map .text)
  ++ optionalField "blocked_from_status" (item.nativeBlockedFrom.map fun s => .text (Text.word s))
  ++ (if item.extensions.isEmpty then []
      else [("extensions", .object item.extensions.entries)])

/-- The stored form of an item. -/
def toJson (item : Item) : Json := .object item.fields

/-! ## Reading -/

/-- How deep a text may nest values. -/
def maxDepth : Nat := 127

/-- A time stamp in a text. -/
def readStamp? (raw : Json.Raw) : Option Stamp := raw.text?.bind Stamp.read?

/-- A priority: a whole number of 64 bits. -/
def readPriority? (raw : Json.Raw) : Option Int := raw.int? (-Int.pow 2 63) (Int.pow 2 63 - 1)

/-- The extension entries: an object whose values nest no deeper than allowed. -/
def readExtensions? (depth : Nat) : Json.Raw → Option (Dict Json)
  | .object fields => (Json.Raw.toFields? depth fields).map Dict.ofList
  | _ => none

/-- The item that a record describes, given how many values the record itself lies in. -/
def read? (around : Nat) (raw : Json.Raw) : Option Item := do
  let given ← raw.record? ["id", "title", "status", "priority", "description", "tags",
    "dependencies", "created_at", "updated_at", "blocked_reason", "blocked_from_status",
    "extensions"]
  match given with
  | [id, title, status, priority, description, tags, dependencies, createdAt, updatedAt,
      blockedReason, blockedFrom, extensions] => do
    let id ← id.bind Json.Raw.text?
    let title ← title.bind Json.Raw.text?
    let native ← status.bind (Json.Raw.member? NativeStatus)
    let priority ← Json.Raw.orDefault? 0 readPriority? priority
    let description ← Json.Raw.orDefault? none (Json.Raw.nullable? Json.Raw.text?) description
    let tags ← Json.Raw.orDefault? [] (Json.Raw.list? Json.Raw.text?) tags
    let dependencies ← Json.Raw.orDefault? [] (Json.Raw.list? Json.Raw.text?) dependencies
    let createdAt ← createdAt.bind readStamp?
    let updatedAt ← updatedAt.bind readStamp?
    let blockedReason ← Json.Raw.orDefault? none (Json.Raw.nullable? Json.Raw.text?) blockedReason
    let nativeBlockedFrom ← Json.Raw.orDefault? none
      (Json.Raw.nullable? (Json.Raw.member? NativeStatus)) blockedFrom
    let extensions ← Json.Raw.orDefault? .empty (readExtensions? (maxDepth - around - 2)) extensions
    return { id, title, native, priority, description, tags, dependencies, createdAt, updatedAt,
             blockedReason, nativeBlockedFrom, extensions }
  | _ => none

/-- The item that a text describes. -/
def ofText? (text : String) : Option Item := (Json.Raw.read? text).bind (read? 0)

/-! ## Examples -/

/-- The line written for the item that a text describes. -/
def written? (text : String) : Option String := (ofText? text).map fun i => i.toJson.compact

example : written? "[\"A-1\",\"t\",\"doing\",3,null,[\"x\"],[],\"2020-01-01T09:00:00Z\",\"2020-01-01T09:00:00Z\"]"
    = some ("\x7b\"id\":\"A-1\",\"title\":\"t\",\"status\":\"doing\",\"priority\":3,\"tags\":[\"x\"],"
      ++ "\"dependencies\":[],\"created_at\":\"2020-01-01T09:00:00Z\",\"updated_at\":\"2020-01-01T09:00:00Z\"\x7d") := by
  decide +kernel

end Backlog.Item
