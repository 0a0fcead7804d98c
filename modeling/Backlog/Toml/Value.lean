/-
  Tables of a configuration document.

  Program: a document is put together from definitions, each of which may touch a key only in ways
  that its earlier definitions leave open.  So a table remembers how it came to be (`Origin`).

  Specification: a value is defined once.  A table with a header of its own, or one written inline,
  is closed for everyone else; one that only lies on the way to another may still get its own
  header, or be filled by dotted keys, but not both.

  The crux is `within`, which walks a path of keys, makes the tables that are missing, claims those
  on the way for the dotted keys that walk it, and refuses to walk through what is closed.
-/
import Backlog.Dict
import Backlog.Toml.Scalar

namespace Backlog.Toml

/-- How a table came to be. -/
inductive Origin where
  /-- By a header of its own, or as the document itself. -/
  | header
  /-- On the way to a table with a header. -/
  | path
  /-- By dotted keys, or filled by them after it lay on the way to a header. -/
  | dotted
  /-- Between braces. -/
  | braces
deriving DecidableEq, Repr

/-- A value of a document. -/
inductive Value where
  | scalar (s : Scalar)
  | array (items : List Value)
  /-- Tables with a repeated header, the last one first. -/
  | tables (items : List (List (String × Value)))
  | table (origin : Origin) (entries : List (String × Value))

/-- The entries of a table, each key once. -/
abbrev Entries := List (String × Value)

/-! ## Paths -/

/-- Put a value under a key, in place of any there. -/
def put (key : String) (value : Value) : Entries → Entries
  | [] => [(key, value)]
  | (k, v) :: rest => if k = key then (key, value) :: rest else (k, v) :: put key value rest

/-- Change the table at the end of a path, given how the table that the path starts from came to
    be. Tables that are missing are made, of dotted keys or on the way to a header; dotted keys also
    take over those that lie on the way to a header. -/
def within (dotted : Bool) (change : Origin → Entries → Option Entries) :
    List String → Origin → Entries → Option Entries
  | [], origin, entries => change origin entries
  | key :: path, _, entries =>
    match lookupEntry key entries with
    | none => do
      let made := if dotted then Origin.dotted else .path
      return put key (.table made (← within dotted change path made [])) entries
    | some (.table origin inner) =>
      if origin = .braces ∨ (dotted = true ∧ origin = .header) then none
      else do
        let claimed := if dotted then Origin.dotted else origin
        return put key (.table claimed (← within dotted change path claimed inner)) entries
    | some (.tables (last :: others)) => do
      return put key (.tables ((← within dotted change path .header last) :: others)) entries
    | some _ => none

/-! ## Definitions -/

/-- A key with its value, the key as the path before it and the last part. -/
structure Pair where
  path : List String
  key : String
  value : Value

/-- Add a pair to a table. -/
def addPair (entries : Entries) (pair : Pair) : Option Entries :=
  within (!pair.path.isEmpty) (fun origin inner =>
    if (origin = .dotted) ≠ (pair.path ≠ []) then none
    else if (lookupEntry pair.key inner).isSome then none
    else some (put pair.key pair.value inner)) pair.path .header entries

/-- The table of some pairs, added to one that was made on the way to others. -/
def addPairs (entries : Entries) (pairs : List Pair) : Option Entries := pairs.foldlM addPair entries

/-- A header with the pairs below it. -/
structure Section where
  path : List String
  key : String
  /-- Whether the header may be repeated, for one more table each time. -/
  repeated : Bool
  pairs : List Pair

/-- Add a table with a header to a document. -/
def addSection (document : Entries) (s : Section) : Option Entries :=
  within false (fun _ inner =>
    match s.repeated, lookupEntry s.key inner with
    | false, none => do return put s.key (.table .header (← addPairs [] s.pairs)) inner
    | false, some (.table .path entries) => do
      return put s.key (.table .header (← addPairs entries s.pairs)) inner
    | true, none => do return put s.key (.tables [← addPairs [] s.pairs]) inner
    | true, some (.tables others) => do
      return put s.key (.tables ((← addPairs [] s.pairs) :: others)) inner
    | _, _ => none) s.path .header document

/-- The document of some pairs and some tables with headers. -/
def assemble? (pairs : List Pair) (sections : List Section) : Option Entries := do
  sections.foldlM addSection (← addPairs [] pairs)

/-- The parts of an array, also of one made by repeated headers. -/
def Value.items? : Value → Option (List Value)
  | .array items => some items
  | .tables items => some (items.reverse.map (.table .header))
  | _ => none

/-! ## Values that can be asked for -/

mutual

/-- Whether every number in a value has a value of its own. -/
def Value.isFit : Value → Bool
  | .scalar s => s ≠ .unfit
  | .array items => areFit items
  | .tables items => areTablesFit items
  | .table _ entries => areEntriesFit entries

/-- Whether every number in some values has a value of its own. -/
def areFit : List Value → Bool
  | [] => true
  | item :: items => item.isFit && areFit items

/-- Whether every number in some tables has a value of its own. -/
def areTablesFit : List (List (String × Value)) → Bool
  | [] => true
  | entries :: tables => areEntriesFit entries && areTablesFit tables

/-- Whether every number in a table has a value of its own. -/
def areEntriesFit : List (String × Value) → Bool
  | [] => true
  | (_, value) :: entries => value.isFit && areEntriesFit entries

end

/-! ## Examples -/

/-- A pair with a truth value. -/
def flag (path : List String) (key : String) : Pair := ⟨path, key, .scalar (.bool true)⟩

example : (assemble? [flag ["a"] "x", flag ["a"] "y"] []).isSome = true := by decide
example : (Value.array [.table .braces [("x", .scalar .unfit)]]).isFit = false := by decide
example : (assemble? [flag ["a"] "x"] [⟨[], "a", false, []⟩]).isSome = false := by decide
example : (assemble? [] [⟨["a"], "b", false, []⟩, ⟨[], "a", false, [flag [] "x"]⟩]).isSome = true := by
  decide
example : (assemble? [] [⟨["a"], "b", false, []⟩, ⟨[], "a", false, [flag ["b"] "x"]⟩]).isSome
    = false := by decide
example : (assemble? [] [⟨["a", "b"], "c", false, []⟩, ⟨[], "a", false, [flag ["b"] "x"]⟩]).isSome
    = true := by decide
example : (assemble? [] [⟨["a", "b"], "c", false, []⟩, ⟨[], "a", false, [flag ["b"] "x"]⟩,
    ⟨["a"], "b", false, []⟩]).isSome = false := by decide
example : (assemble? [] [⟨[], "a", true, []⟩, ⟨["a"], "b", false, []⟩, ⟨[], "a", true, []⟩,
    ⟨["a"], "b", false, []⟩]).isSome = true := by decide

end Backlog.Toml
