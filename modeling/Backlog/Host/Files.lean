/-
  A tree of files, as a value.

  Program: a path is walked part by part from a folder, and every part but the last has to lead to a
  folder; two dots lead back.  Reading, writing and removing then happen at the place found.

  Specification: what is written is what is read, and nothing else changes.
-/
import Backlog.Dict
import Backlog.Host.Path

namespace Backlog

/-! ## Trees -/

/-- A file with its bytes and whether someone holds its lock, or a folder with its entries in the
    order of their names. -/
inductive FileTree where
  | file (content : ByteArray) (locked : Bool)
  | folder (entries : List (String × FileTree))

/-- Why something cannot be done with a path. -/
inductive FileError where
  | missing | notFolder | isFolder | taken
deriving DecidableEq, Repr

/-- The error in words. -/
def FileError.message : FileError → String
  | .missing => "no such file or directory"
  | .notFolder => "not a directory"
  | .isFolder => "is a directory"
  | .taken => "file exists"

namespace FileTree

/-- A place in a tree: the names that lead there. -/
abbrev Place := List String

/-- The folder without entries. -/
def empty : FileTree := .folder []

/-- What lies at a place. -/
def at? : Place → FileTree → Option FileTree
  | [], tree => some tree
  | name :: place, .folder entries => (lookupEntry name entries).bind (at? place)
  | _ :: _, .file .. => none

/-- Change what lies at a place, if its folder is there; none removes it. -/
def alter (change : Option FileTree → Option FileTree) : Place → FileTree → FileTree
  | [], tree => (change (some tree)).getD empty
  | [name], .folder entries =>
    match change (lookupEntry name entries) with
    | some tree => .folder (insertEntry name tree entries)
    | none => .folder (entries.filter fun e => e.1 != name)
  | name :: place, .folder entries =>
    match lookupEntry name entries with
    | some tree => .folder (insertEntry name (alter change place tree) entries)
    | none => .folder entries
  | _ :: _, .file content locked => .file content locked

/-- Put something at a place. -/
def put (tree : FileTree) (place : Place) (new : FileTree) : FileTree :=
  tree.alter (fun _ => some new) place

/-! ## Walking -/

/-- Fail unless a place is a folder. -/
def requireFolder (tree : FileTree) (place : Place) : Except FileError Unit :=
  match tree.at? place with
  | some (.folder _) => .ok ()
  | some (.file ..) => .error .notFolder
  | none => .error .missing

/-- The place that parts of a path lead to from a folder; a part may lead to nothing yet if it is
    the last one. -/
def walk (tree : FileTree) : Place → List String → Except FileError Place
  | place, [] => .ok place
  | place, part :: parts => do
    tree.requireFolder place
    if part = "" ∨ part = "." then walk tree place parts
    else if part = ".." then walk tree place.dropLast parts
    else walk tree (place ++ [part]) parts

/-- The place that a path leads to, relative ones from the current folder. -/
def locate (tree : FileTree) (current : Place) (path : String) : Except FileError Place :=
  tree.walk (if Path.isAbsolute path then [] else current) (Path.parts path)

/-- What a path leads to, with its place. -/
def find (tree : FileTree) (current : Place) (path : String) :
    Except FileError (Place × FileTree) := do
  if path.isEmpty then throw .missing
  let place ← tree.locate current path
  match tree.at? place with
  | some found => return (place, found)
  | none => throw .missing

/-! ## Files -/

/-- The bytes of a file. -/
def read (tree : FileTree) (current : Place) (path : String) : Except FileError ByteArray := do
  match ← tree.find current path with
  | (_, .file content _) => return content
  | (_, .folder _) => throw .isFolder

/-- Change the bytes of a file and its lock, given as they are, or none for a file to be made. -/
def change (tree : FileTree) (current : Place) (path : String)
    (next : Option (ByteArray × Bool) → ByteArray × Bool) : Except FileError FileTree := do
  if path.isEmpty then throw .missing
  let place ← tree.locate current path
  match tree.at? place with
  | some (.folder _) => throw .isFolder
  | some (.file content locked) =>
    let (content, locked) := next (some (content, locked))
    return tree.put place (.file content locked)
  | none =>
    let (content, locked) := next none
    return tree.put place (.file content locked)

/-- Write a file, in place of any bytes it has. -/
def write (tree : FileTree) (current : Place) (path : String) (content : ByteArray) :
    Except FileError FileTree :=
  tree.change current path fun old => (content, old.any (·.2))

/-- Add bytes to the end of a file. -/
def append (tree : FileTree) (current : Place) (path : String) (content : ByteArray) :
    Except FileError FileTree :=
  tree.change current path fun
    | some (old, locked) => (old ++ content, locked)
    | none => (content, false)

/-- Put a file in place of another, or where nothing is. -/
def rename (tree : FileTree) (current : Place) (src dst : String) :
    Except FileError FileTree := do
  let (source, moved) ← tree.find current src
  let target ← tree.locate current dst
  match tree.at? target with
  | some (.folder _) => throw .isFolder
  | _ => return (tree.alter (fun _ => none) source).put target moved

/-- Take the lock on a file; whether it was free. -/
def lock (tree : FileTree) (current : Place) (path : String) :
    Except FileError (Bool × FileTree) := do
  let held := match tree.find current path with
    | .ok (_, .file _ locked) => locked
    | _ => false
  let tree ← tree.change current path fun old => ((old.map (·.1)).getD .empty, true)
  return (!held, tree)

/-- Free the lock on a file. -/
def unlock (tree : FileTree) (current : Place) (path : String) : FileTree :=
  match tree.find current path with
  | .ok (place, .file content _) => tree.put place (.file content false)
  | _ => tree

/-! ## Folders -/

/-- Make the folders that parts of a path lead through. -/
def makeFolders (tree : FileTree) : Place → List String → Except FileError FileTree
  | place, [] =>
    match tree.at? place with
    | some (.file ..) => .error .taken
    | _ => .ok tree
  | place, part :: parts => do
    tree.requireFolder place
    if part = "" ∨ part = "." then makeFolders tree place parts
    else if part = ".." then makeFolders tree place.dropLast parts
    else
      let inner := place ++ [part]
      match tree.at? inner with
      | some _ => makeFolders tree inner parts
      | none => makeFolders (tree.put inner empty) inner parts

/-- The names in a folder, in order. -/
def names (tree : FileTree) (current : Place) (path : String) : List String :=
  match tree.find current path with
  | .ok (_, .folder entries) => entries.map (·.1)
  | _ => []

/-- Remove a file, or a folder with all that lies in it. -/
def remove (tree : FileTree) (current : Place) (path : String) : Except FileError FileTree := do
  let (place, _) ← tree.find current path
  return tree.alter (fun _ => none) place

/-! ## Examples -/

/-- A tree with a file in a folder. -/
def sample : FileTree :=
  .folder [("a", .folder [("f", .file ⟨#[104, 105]⟩ false)]), ("b", .folder [])]

example : ((sample.read [] "a/./f").toOption).map ByteArray.size = some 2 := by decide +kernel
example : (sample.read ["a"] "../b/f").toOption.isSome = false := by decide +kernel
example : sample.names [] "a/.." = ["a", "b"] := by decide +kernel

end FileTree

end Backlog
