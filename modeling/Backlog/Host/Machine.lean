/-
  A machine that is a value.

  It has a tree of files, a current folder, a clock that moves on by a second whenever it is read,
  and what was printed and logged.  Every call of a program is answered from it, so a whole run of
  the command line is a function of the machine before it.
-/
import Backlog.Host.Call
import Backlog.Host.Files

namespace Backlog

/-- A machine between two calls. -/
structure Machine where
  files : FileTree := .empty
  /-- The place of the current folder. -/
  current : FileTree.Place := []
  clock : Stamp := default
  printed : String := ""
  logged : List (Severity × String) := []

namespace Machine

/-- Answer with the outcome of a change to the files. -/
def changeFiles (machine : Machine) (outcome : Except FileError FileTree) :
    Except String Unit × Machine :=
  match outcome with
  | .ok files => (.ok (), { machine with files })
  | .error e => (.error e.message, machine)

/-- Answer a call. -/
def answer : (call : Host.Call) → Machine → call.Answer × Machine
  | .kind path, m =>
    (match m.files.find m.current path with
      | .ok (_, .file ..) => some FileKind.file
      | .ok (_, .folder _) => some FileKind.folder
      | .error _ => none, m)
  | .read path, m => ((m.files.read m.current path).mapError FileError.message, m)
  | .write path text, m => m.changeFiles (m.files.write m.current path text.toUTF8)
  | .append path text, m => m.changeFiles (m.files.append m.current path text.toUTF8)
  | .rename src dst, m => m.changeFiles (m.files.rename m.current src dst)
  | .makeFolders path, m =>
    m.changeFiles (m.files.makeFolders (if Path.isAbsolute path then [] else m.current)
      (Path.parts path))
  | .resolve path, m =>
    (match m.files.find m.current path with
      | .ok (place, _) => some (Path.ofParts place)
      | .error _ => none, m)
  | .lock path waitMs, m =>
    match m.files.lock m.current path with
    | .ok (true, files) => (.ok (), { m with files })
    | .ok (false, files) => (.error (.busy waitMs), { m with files })
    | .error e => (.error (.refused e.message), m)
  | .unlock path, m => ((), { m with files := m.files.unlock m.current path })
  | .here, m => (some (Path.ofParts m.current), m)
  | .now, m => (m.clock, { m with clock := { m.clock with seconds := m.clock.seconds + 1 } })
  | .print text, m => ((), { m with printed := m.printed ++ text })
  | .log severity text, m => ((), { m with logged := m.logged ++ [(severity, text)] })
  | .pause _, m => ((), m)

/-- Run a program. -/
def run {α : Type} (machine : Machine) (program : Host α) : α × Machine :=
  Script.run answer program machine

end Machine

end Backlog
