/-
  Paths of files.

  A path is its parts with slashes between; it is absolute when a slash comes first.
-/

namespace Backlog.Path

/-- Whether a path starts at the root. -/
def isAbsolute (path : String) : Bool := path.toList.head? == some '/'

/-- A path from a folder on; an absolute one stands for itself. -/
def join (folder path : String) : String :=
  if isAbsolute path || folder.isEmpty then path
  else if folder.toList.getLast? == some '/' then folder ++ path
  else folder ++ "/" ++ path

/-- A character in front of the parts that follow it; a slash begins a new part. -/
def addChar (c : Char) : List (List Char) → List (List Char)
  | [] => if c = '/' then [[]] else [[c]]
  | part :: parts => if c = '/' then [] :: part :: parts else (c :: part) :: parts

/-- The parts of a path, the first one of an absolute path being empty. -/
def parts (path : String) : List String := (path.toList.foldr addChar [[]]).map String.ofList

/-- The absolute path with these parts. -/
def ofParts (parts : List String) : String :=
  if parts.isEmpty then "/" else String.join (parts.map ("/" ++ ·))

/-! ## Examples -/

example : [join "a" "b", join "a/" "b", join "a" "/b", join "" "b"] = ["a/b", "a/b", "/b", "b"] := by
  decide +kernel
example : parts "/a//b" = ["", "a", "", "b"] := by decide +kernel

end Backlog.Path
