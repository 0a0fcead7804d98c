/-
  A store in a folder.

  Program: the active items are in one file, which is written anew beside the old one and then put
  in its place; the archive is a file that only grows; a third file is there to be locked.

  Specification: a store call that fails leaves the active items as they were, since nothing but the
  last step of a save touches their file.
-/
import Backlog.Host.Call
import Backlog.Host.Path
import Backlog.Store.Snapshot

namespace Backlog

/-- A store in a folder. -/
structure FolderStore where
  /-- The path of the folder. -/
  root : String
  /-- How long to wait for the lock. -/
  lockTimeoutMs : Nat := 5000
deriving DecidableEq, Repr

namespace FolderStore

open Host (orFail)

/-- A program over the store. -/
abbrev Task (α : Type) := Host.Task StoreError α

/-! ## Paths -/

/-- The file of the active items. -/
def itemsPath (store : FolderStore) : String := Path.join store.root "items.json"

/-- The file that the active items are written to first. -/
def draftPath (store : FolderStore) : String := Path.join store.root "items.json.tmp"

/-- The file of the archived items. -/
def archivePath (store : FolderStore) : String := Path.join store.root "archive.jsonl"

/-- The file that is locked. -/
def lockPath (store : FolderStore) : String := Path.join store.root "items.lock"

/-- The files whose changes belong to the store. -/
def trackedFiles (store : FolderStore) : List String := [store.itemsPath, store.archivePath]

/-! ## Single steps -/

/-- A step on the file system, whose refusal names a path. -/
def onPath {α : Type} (path : String) (step : Host (Except String α)) : Task α :=
  orFail (.io path) step

/-- Fail unless the store's folder is there. -/
def requireRoot (store : FolderStore) : Task Unit := do
  match ← Host.kind store.root with
  | some .folder => return ()
  | _ => throw (.notInitialized store.root)

/-- The text that bytes encode. -/
def decode (path : String) (bytes : ByteArray) : Except StoreError String :=
  match String.fromUTF8? bytes with
  | some text => .ok text
  | none => .error (.io path "stream did not contain valid UTF-8")

/-! ## Active items -/

/-- The active items that the text of a file holds. -/
def readItems (path text : String) : Except StoreError (List Item) :=
  (Snapshot.read text).mapError fun damage => .corrupt path damage.message

/-- The active items, none without a file. -/
def load (store : FolderStore) : Task (List Item) := do
  store.requireRoot
  let path := store.itemsPath
  if ← Host.exists? path then
    let text ← decode path (← onPath path (Host.read path))
    return ← readItems path text
  else return []

/-- Replace the active items. -/
def save (store : FolderStore) (items : List Item) : Task Unit := do
  store.requireRoot
  onPath store.draftPath (Host.write store.draftPath (Snapshot.render items))
  onPath store.itemsPath (Host.rename store.draftPath store.itemsPath)

/-! ## The archive -/

/-- The item of a line, or none for a blank one. -/
def readLine (path : String) (number : Nat) (bytes : List UInt8) :
    Except StoreError (Option Item) := do
  let text ← decode path ⟨bytes.toArray⟩
  if Text.isBlank text then return none
  match Item.ofText? text with
  | some item => return some item
  | none => throw (.corrupt path (Damage.line number).message)

/-- The items of lines, the first one having the given number. -/
def readLines (path : String) : Nat → List (List UInt8) → Except StoreError (List Item)
  | _, [] => .ok []
  | number, line :: lines => do
    let item ← readLine path number line
    return item.toList ++ (← readLines path (number + 1) lines)

/-- The archived items in the order in which they were archived, none without a file. -/
def loadArchive (store : FolderStore) : Task (List Item) := do
  store.requireRoot
  let path := store.archivePath
  if ← Host.exists? path then
    let bytes ← onPath path (Host.read path)
    return ← readLines path 1 (Archive.lines bytes.toList)
  else return []

/-- Add an item to the archive. -/
def append (store : FolderStore) (item : Item) : Task Unit := do
  store.requireRoot
  onPath store.archivePath (Host.append store.archivePath (Archive.line item))

/-- The IDs of the archived items. -/
def archivedIds (store : FolderStore) : Task (List String) := do
  return (← store.loadArchive).map Item.id

/-- The IDs of all items, archived ones first. -/
def knownIds (store : FolderStore) : Task (List String) := do
  return (← store.archivedIds) ++ (← store.load).map Item.id

/-! ## The lock -/

/-- Take the lock. -/
def lock (store : FolderStore) : Task Unit := do
  store.requireRoot
  match ← Host.lock store.lockPath store.lockTimeoutMs with
  | .ok () => return ()
  | .error (.busy waitedMs) => throw (.lockTimeout waitedMs)
  | .error (.refused reason) => throw (.io store.lockPath reason)

/-- Run a program while holding the lock, which is freed however it ends. -/
def locked {ε α : Type} (store : FolderStore) (ofStore : StoreError → ε) (program : Host.Task ε α) :
    Host.Task ε α :=
  ExceptT.mk do
    match ← store.lock.run with
    | .error e => return .error (ofStore e)
    | .ok () => do
      let outcome ← program.run
      Host.unlock store.lockPath
      return outcome

/-! ## Making a store -/

/-- Make the store's folder and an empty file of active items; whether it was not there yet. -/
def init (store : FolderStore) : Task Bool := do
  onPath store.root (Host.makeFolders store.root)
  if ← Host.exists? store.itemsPath then return false
  else
    store.save []
    return true

/-! ## A coordinator's surroundings -/

/-- A store call of a coordinator. -/
def call {α : Type} (task : Task α) : Host (Except StoreFault α) := do
  return (← task.run).mapError .failed

/-- Answer a coordinator from the store; without version control there is never anything to
    commit. -/
def answer (store : FolderStore) : (request : Request) → Host request.Answer
  | .lock => call store.lock
  | .unlock => Host.unlock store.lockPath
  | .load => call store.load
  | .save items => call (store.save items)
  | .append item => call (store.append item)
  | .archivedIds => call store.archivedIds
  | .stage _ | .unstage _ | .stageStore => .done (.ok ())
  | .commit _ | .head => .done (.ok none)
  | .pause ms => .ask (.pause ms) .done
  | .note d => .ask (.log d.severity d.message) .done

end FolderStore

end Backlog
