/-
  Projects: a folder with a store and settings in it.
-/
import Backlog.Settings
import Backlog.Store.Folder

namespace Backlog

/-! ## Errors -/

/-- Why a project cannot be made or opened. -/
inductive ProjectError where
  | makeStore (path : String)
  | makeFile (path : String)
  /-- The project's folder is not there. -/
  | unresolved
  | readSettings (path : String)
  | parseSettings
  | writeSettings (path : String)
deriving DecidableEq, Repr

/-- The error in words. -/
def ProjectError.message : ProjectError → String
  | .makeStore path => s!"Failed to initialize store in {path}"
  | .makeFile path => s!"Failed to create {path}"
  | .unresolved => "Failed to resolve project directory"
  | .readSettings path => s!"Failed to read config file: {path}"
  | .parseSettings => "Failed to parse phasekeep.toml"
  | .writeSettings path => s!"Failed to write config file: {path}"

/-! ## Projects -/

/-- A project whose settings have been read. -/
structure Project where
  /-- The absolute path of the project's folder. -/
  folder : String
  settings : Settings

namespace Project

/-- A program over a project's files. -/
abbrev Task (α : Type) := Host.Task ProjectError α

/-- The folder of a project's store. -/
def storeFolder (folder : String) : String := Path.join folder ".phasekeep"

/-- The file of a project's settings. -/
def settingsPath (folder : String) : String := Path.join (storeFolder folder) "phasekeep.toml"

/-- The project's store. -/
def store (project : Project) : FolderStore where
  root := storeFolder project.folder
  lockTimeoutMs := 1000 * project.settings.lockTimeoutSecs

/-! ## Settings -/

/-- Read the settings from a file. -/
def readSettings (path : String) : Task Settings := do
  let bytes ← Host.orFail (fun _ => .readSettings path) (Host.read path)
  match String.fromUTF8? bytes with
  | none => throw (.readSettings path)
  | some text =>
    match Settings.read? text with
    | none => throw .parseSettings
    | some settings => return settings

/-- Write settings to a file. -/
def writeSettings (path : String) (settings : Settings) : Task Unit :=
  Host.orFail (fun _ => .writeSettings path) (Host.write path settings.render)

/-- Open the project in a folder; without a file of settings it has the usual ones. -/
def openIn (folder : String) : Task Project := do
  match ← Host.resolve folder with
  | none => throw .unresolved
  | some folder =>
    let path := settingsPath folder
    let settings ← if ← Host.exists? path then readSettings path else pure {}
    return { folder, settings }

/-- Whether the project in a folder has a store. -/
def hasStore (folder : String) : Host Bool :=
  Host.exists? (FolderStore.itemsPath { root := storeFolder folder })

/-! ## Making a project -/

/-- What was made. -/
structure Made where
  /-- Whether the store was not there yet. -/
  created : Bool
  /-- Whether settings were written. -/
  wroteSettings : Bool
deriving DecidableEq, Repr

/-- Make what is missing of a project in a folder; files that are there are left alone. -/
def init (folder : String) : Task Made := do
  let root := storeFolder folder
  let created ← ExceptT.mk do
    return (← (FolderStore.init { root }).run).mapError fun _ => ProjectError.makeStore root
  let ignored := Path.join root ".gitignore"
  if !(← Host.exists? ignored) then
    Host.orFail (fun _ => .makeFile ignored) (Host.write ignored "items.lock\n*.tmp\n")
  let path := settingsPath folder
  let missing := !(← Host.exists? path)
  if missing then writeSettings path {}
  return { created, wroteSettings := missing }

end Project

end Backlog
