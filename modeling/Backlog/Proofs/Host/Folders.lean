/-
  Calls about the entries of a folder.

  Program: files are reached by the path of their folder and a name.

  Specification: while a path leads to a folder (`Machine.FolderAt`), a file in it is read as what is
  there, and a call that changes it makes that entry what it says, keeps every other one, and leaves the
  path leading to the folder (`Machine.Becomes`).
-/
import Backlog.Proofs.Host.Files

namespace Backlog

/-! ## Programs that may fail -/

theorem Machine.run_bind {α β : Type} (m : Machine) (host : Host α) (next : α → Host β) :
    m.run (host >>= next) = (m.run host).2.run (next (m.run host).1) :=
  Script.run_bind Machine.answer host next m

namespace Host

variable {ε α β : Type} {m after : Machine}

/-- A program goes on from where its first step ended. -/
theorem run_bind_ok {task : Task ε α} {next : α → Task ε β} {a : α}
    (h : m.run task.run = (.ok a, after)) : m.run (task >>= next).run = after.run (next a).run := by
  rw [ExceptT.run_bind, Machine.run_bind, h]

/-- A program whose first step fails has failed. -/
theorem run_bind_error {task : Task ε α} {next : α → Task ε β} {e : ε}
    (h : m.run task.run = (.error e, after)) : m.run (task >>= next).run = (.error e, after) := by
  rw [ExceptT.run_bind, Machine.run_bind, h]
  rfl

/-- A program that succeeds has succeeded in each of its steps. -/
theorem run_bind_inv {task : Task ε α} {next : α → Task ε β} {b : β}
    (h : m.run (task >>= next).run = (.ok b, after)) :
    ∃ a between, m.run task.run = (.ok a, between) ∧ between.run (next a).run = (.ok b, after) := by
  rcases hrun : m.run task.run with ⟨outcome, between⟩
  cases outcome with
  | ok a => exact ⟨a, between, rfl, run_bind_ok hrun ▸ h⟩
  | error e =>
    rw [run_bind_error hrun] at h
    cases h

theorem run_lift {host : Host α} {a : α} (h : m.run host = (a, after)) :
    m.run (liftM host : Task ε α).run = (.ok a, after) := by
  show m.run (host >>= _) = _
  rw [Machine.run_bind, h]
  rfl

theorem run_except (outcome : Except ε α) :
    m.run (liftM outcome : Task ε α).run = (outcome, m) := rfl

theorem run_orFail {error : String → ε} {host : Host (Except String α)} {answer : Except String α}
    (h : m.run host = (answer, after)) :
    m.run (orFail error host).run = (answer.mapError error, after) := by
  show m.run (host >>= _) = _
  rw [Machine.run_bind, h]
  rfl

end Host

/-! ## Trees -/

namespace FileTree

/-- The bytes of a file and whether someone holds its lock. -/
def file? : FileTree → Option (ByteArray × Bool)
  | .file content locked => some (content, locked)
  | .folder _ => none

variable {tree : FileTree} {current place : Place} {path : String}

theorem find_eq (hpath : path.isEmpty = false) (hlocate : tree.locate current path = .ok place) :
    tree.find current path
      = (tree.at? place).elim (.error .missing) fun found => .ok (place, found) := by
  simp only [find, hpath, hlocate, bind, Except.bind]
  cases tree.at? place <;> rfl

theorem find_eq_ok_iff {found : FileTree} : tree.find current path = .ok (place, found) ↔
    path.isEmpty = false ∧ tree.locate current path = .ok place ∧ tree.at? place = some found := by
  constructor
  · intro h
    cases hpath : path.isEmpty with
    | true => simp [find, hpath, bind, Except.bind] at h
    | false =>
      cases hlocate : tree.locate current path with
      | error e => simp [find, hpath, hlocate, bind, Except.bind] at h
      | ok target =>
        rw [find_eq hpath hlocate] at h
        cases hat : tree.at? target with
        | none =>
          rw [hat] at h
          cases h
        | some there =>
          rw [hat] at h
          cases h
          exact ⟨rfl, rfl, hat⟩
  · rintro ⟨hpath, hlocate, hat⟩
    rw [find_eq hpath hlocate, hat]
    rfl

theorem change_eq (hpath : path.isEmpty = false) (hlocate : tree.locate current path = .ok place)
    (hfree : ¬ tree.IsFolder place) (next : Option (ByteArray × Bool) → ByteArray × Bool) :
    tree.change current path next =
      .ok (tree.put place (.file (next ((tree.at? place).bind file?)).1
        (next ((tree.at? place).bind file?)).2)) := by
  simp only [change, hpath, hlocate, bind, Except.bind]
  cases hat : tree.at? place with
  | none => rfl
  | some found =>
    cases found with
    | file content locked => rfl
    | folder entries => exact absurd ⟨entries, hat⟩ hfree

theorem change_folder (hpath : path.isEmpty = false) (hlocate : tree.locate current path = .ok place)
    (hfolder : tree.IsFolder place) (next : Option (ByteArray × Bool) → ByteArray × Bool) :
    tree.change current path next = .error .isFolder := by
  obtain ⟨entries, hat⟩ := hfolder
  simp only [change, hpath, hlocate, bind, Except.bind, hat]
  rfl

end FileTree

/-! ## Folders of a machine -/

namespace Machine

/-- A path leads to a folder at a place. -/
structure FolderAt (m : Machine) (path : String) (place : FileTree.Place) : Prop where
  given : path.isEmpty = false
  located : m.files.locate m.current path = .ok place
  folder : m.files.IsFolder place

/-- What a folder has under a name. -/
def entry (m : Machine) (place : FileTree.Place) (name : String) : Option FileTree :=
  m.files.at? (place ++ [name])

/-- One entry of the folder becomes what it is said to be, and nothing else does. -/
structure Becomes (m : Machine) (path : String) (place : FileTree.Place) (name : String)
    (new : Option FileTree) (after : Machine) : Prop where
  root : after.FolderAt path place
  entry : ∀ other, after.entry place other = if other = name then new else m.entry place other

variable {m : Machine} {path name : String} {place : FileTree.Place}

/-- Under this name the folder has no folder. -/
def NoFolder (m : Machine) (place : FileTree.Place) (name : String) : Prop :=
  ∀ entries, m.entry place name ≠ some (.folder entries)

theorem noFolder_none (h : m.entry place name = none) : m.NoFolder place name := by
  intro entries hentry
  cases h.symm.trans hentry

theorem noFolder_file {content : ByteArray} {locked : Bool}
    (h : m.entry place name = some (.file content locked)) : m.NoFolder place name := by
  intro entries hentry
  cases h.symm.trans hentry

theorem NoFolder.not_isFolder (h : m.NoFolder place name) : ¬ m.files.IsFolder (place ++ [name]) := by
  rintro ⟨entries, hat⟩
  exact h entries hat

theorem becomes_alter (h : m.FolderAt path place) (hfree : m.NoFolder place name)
    (change : Option FileTree → Option FileTree) :
    m.Becomes path place name (change (m.entry place name))
      { m with files := m.files.alter change (place ++ [name]) } where
  root := {
    given := h.given
    located := FileTree.walk_mono (fun _ => FileTree.isFolder_alter hfree.not_isFolder) h.located
    folder := FileTree.isFolder_alter hfree.not_isFolder h.folder }
  entry other := FileTree.at?_alter h.folder name other

/-! ## Asking -/

theorem folderAt_of_kind (h : (m.run (Host.kind path)).1 = some .folder) :
    ∃ place, m.FolderAt path place := by
  simp only [run, Host.kind, Script.run, answer] at h
  cases hfind : m.files.find m.current path with
  | error e =>
    rw [hfind] at h
    cases h
  | ok found =>
    obtain ⟨place, found⟩ := found
    cases found with
    | file content locked =>
      rw [hfind] at h
      cases h
    | folder entries =>
      obtain ⟨hgiven, hlocated, hat⟩ := FileTree.find_eq_ok_iff.mp hfind
      exact ⟨place, hgiven, hlocated, entries, hat⟩

theorem run_kind (h : m.FolderAt path place) : m.run (Host.kind path) = (some .folder, m) := by
  obtain ⟨entries, hat⟩ := h.folder
  have hfind := FileTree.find_eq_ok_iff.mpr ⟨h.given, h.located, hat⟩
  simp only [run, Host.kind, Script.run, answer, hfind]

/-- What a path into the folder leads to. -/
theorem find_join (h : m.FolderAt path place) (hname : Path.IsPlain name) :
    m.files.find m.current (Path.join path name) =
      ((m.entry place name).elim (.error .missing) fun found => .ok (place ++ [name], found)) :=
  FileTree.find_eq (Path.isEmpty_join h.given hname)
    (FileTree.locate_join h.given hname h.located h.folder)

theorem run_exists (h : m.FolderAt path place) (hname : Path.IsPlain name) :
    m.run (Host.exists? (Path.join path name)) = ((m.entry place name).isSome, m) := by
  simp only [run, Host.exists?, Script.run, answer, find_join h hname]
  cases m.entry place name with
  | none => rfl
  | some found => cases found <;> rfl

theorem run_read (h : m.FolderAt path place) (hname : Path.IsPlain name) {content : ByteArray}
    {locked : Bool} (hentry : m.entry place name = some (.file content locked)) :
    m.run (Host.read (Path.join path name)) = (.ok content, m) := by
  simp only [run, Host.read, Script.run, answer, FileTree.read, find_join h hname, hentry,
    Option.elim_some, bind, Except.bind]
  rfl

/-! ## Changing -/

theorem changeFiles_change (h : m.FolderAt path place) (hname : Path.IsPlain name)
    (hfree : m.NoFolder place name) (next : Option (ByteArray × Bool) → ByteArray × Bool) :
    ∃ after, m.changeFiles (m.files.change m.current (Path.join path name) next) = (.ok (), after) ∧
      m.Becomes path place name (some (.file (next ((m.entry place name).bind FileTree.file?)).1
        (next ((m.entry place name).bind FileTree.file?)).2)) after := by
  have hlocate := FileTree.locate_join h.given hname h.located h.folder
  rw [FileTree.change_eq (Path.isEmpty_join h.given hname) hlocate hfree.not_isFolder]
  exact ⟨_, rfl, becomes_alter h hfree fun _ => some (.file _ _)⟩

theorem run_write (h : m.FolderAt path place) (hname : Path.IsPlain name)
    (hfree : m.NoFolder place name) (text : String) :
    ∃ after locked, m.run (Host.write (Path.join path name) text) = (.ok (), after) ∧
      m.Becomes path place name (some (.file text.toUTF8 locked)) after := by
  obtain ⟨after, hafter, hbecomes⟩ := changeFiles_change h hname hfree
    fun old => (text.toUTF8, old.any (·.2))
  exact ⟨after, _, hafter, hbecomes⟩

theorem run_write_folder (h : m.FolderAt path place) (hname : Path.IsPlain name)
    {entries : List (String × FileTree)}
    (hfolder : m.entry place name = some (.folder entries)) (text : String) :
    m.run (Host.write (Path.join path name) text) = (.error FileError.isFolder.message, m) := by
  have hlocate := FileTree.locate_join h.given hname h.located h.folder
  simp only [run, Host.write, Script.run, answer, FileTree.write,
    FileTree.change_folder (Path.isEmpty_join h.given hname) hlocate ⟨entries, hfolder⟩,
    changeFiles]

theorem run_append_none (h : m.FolderAt path place) (hname : Path.IsPlain name)
    (hentry : m.entry place name = none) (text : String) :
    ∃ after locked, m.run (Host.append (Path.join path name) text) = (.ok (), after) ∧
      m.Becomes path place name (some (.file text.toUTF8 locked)) after := by
  obtain ⟨after, hafter, hbecomes⟩ := changeFiles_change h hname (noFolder_none hentry) _
  rw [hentry] at hbecomes
  exact ⟨after, _, hafter, hbecomes⟩

theorem run_append_file (h : m.FolderAt path place) (hname : Path.IsPlain name) {old : ByteArray}
    {locked : Bool} (hentry : m.entry place name = some (.file old locked)) (text : String) :
    ∃ after, m.run (Host.append (Path.join path name) text) = (.ok (), after) ∧
      m.Becomes path place name (some (.file (old ++ text.toUTF8) locked)) after := by
  obtain ⟨after, hafter, hbecomes⟩ := changeFiles_change h hname (noFolder_file hentry) _
  rw [hentry] at hbecomes
  exact ⟨after, hafter, hbecomes⟩

/-- A file that is put in place of another is gone from where it was. -/
theorem run_rename {src dst : String} (h : m.FolderAt path place) (hsrc : Path.IsPlain src)
    (hdst : Path.IsPlain dst) (hne : dst ≠ src) {content : ByteArray} {locked : Bool}
    (hmoved : m.entry place src = some (.file content locked))
    (hfree : m.NoFolder place dst) :
    ∃ between after, m.run (Host.rename (Path.join path src) (Path.join path dst)) = (.ok (), after) ∧
      m.Becomes path place src none between ∧
      between.Becomes path place dst (some (.file content locked)) after := by
  have hlocate := FileTree.locate_join h.given hdst h.located h.folder
  have htaken := becomes_alter h (noFolder_file hmoved) fun _ => none
  have hstill : NoFolder { m with files := m.files.alter (fun _ => none) (place ++ [src]) } place dst := by
    intro entries
    rw [htaken.entry dst, if_neg hne]
    exact hfree entries
  refine ⟨_, _, ?_, htaken, becomes_alter htaken.root hstill fun _ => some (.file content locked)⟩
  have htarget : m.files.at? (place ++ [dst]) = m.entry place dst := rfl
  simp only [run, Host.rename, Script.run, answer, FileTree.rename, find_join h hsrc, hmoved,
    Option.elim_some, hlocate, bind, Except.bind, htarget]
  cases hentry : m.entry place dst with
  | none => rfl
  | some found =>
    cases found with
    | file content locked => rfl
    | folder entries => exact absurd hentry (hfree entries)

end Machine

end Backlog
