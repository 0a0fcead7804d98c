/-
  What a change of the files leaves as it was.

  Program: a path is walked to a place, and the tree is changed there.

  Specification: under a folder, one entry is the changed one and every other is what it was
  (`at?_alter`), and paths lead where they led (`walk_alter`).

  The crux is the step of a change into a folder (`alter_folder`), which says of each entry what becomes
  of it; that no folder is lost follows, since what is changed is none.
-/
import Backlog.Host.Machine
import Backlog.Proofs.Text.Rows

namespace Backlog

theorem lookupEntry_filter {α : Type} (key other : String) (entries : List (String × α)) :
    lookupEntry other (entries.filter fun e => e.1 != key)
      = if other = key then none else lookupEntry other entries := by
  induction entries with
  | nil => rw [List.filter_nil, lookupEntry, ite_self]
  | cons first rest ih =>
    obtain ⟨k, v⟩ := first
    by_cases hk : k = key
    · subst hk
      rw [List.filter_cons_of_neg (by simp), ih, lookupEntry]
      by_cases ho : other = k <;> simp [ho]
    · rw [List.filter_cons_of_pos (by simp [hk]), lookupEntry, lookupEntry, ih]
      by_cases ho : other = k
      · simp [ho, hk]
      · simp [ho]

/-! ## Paths into a folder -/

namespace Path

/-- A name that is one part of a path and leads onwards. -/
def IsPlain (name : String) : Prop := '/' ∉ name.toList ∧ name ≠ "" ∧ name ≠ "." ∧ name ≠ ".."

instance (name : String) : Decidable (IsPlain name) :=
  inferInstanceAs (Decidable ('/' ∉ name.toList ∧ name ≠ "" ∧ name ≠ "." ∧ name ≠ ".."))

theorem cuts_addChar : Text.Cuts '/' addChar where
  atMark _ _ := rfl
  other _ _ _ hc := if_neg hc

theorem isAbsolute_of_plain {name : String} (h : IsPlain name) : isAbsolute name = false := by
  rw [isAbsolute, beq_eq_false_iff_ne]
  exact fun hhead => h.1 (List.mem_of_head? hhead)

/-- The two ways in which a name is added to the path of a folder. -/
theorem join_cases {folder name : String} (hfolder : folder.isEmpty = false) (hname : IsPlain name) :
    (∃ front, folder.toList = front ++ ['/'] ∧ (join folder name).toList = front ++ '/' :: name.toList) ∨
      (join folder name).toList = folder.toList ++ '/' :: name.toList := by
  rw [join, isAbsolute_of_plain hname, hfolder, if_neg (by decide)]
  split
  · next hslash =>
    obtain ⟨front, hfront⟩ := List.getLast?_eq_some_iff.mp (eq_of_beq hslash)
    refine .inl ⟨front, hfront, ?_⟩
    rw [String.toList_append, hfront, List.append_assoc]
    rfl
  · refine .inr ?_
    rw [String.toList_append, String.toList_append, List.append_assoc]
    rfl

theorem isEmpty_join {folder name : String} (hfolder : folder.isEmpty = false)
    (hname : IsPlain name) : (join folder name).isEmpty = false := by
  rw [String.isEmpty_eq_false_iff, ne_eq, ← String.toList_eq_nil_iff]
  rcases join_cases hfolder hname with ⟨front, -, hjoin⟩ | hjoin
  · rw [hjoin]
    exact List.append_ne_nil_of_right_ne_nil front (List.cons_ne_nil _ _)
  · rw [hjoin]
    exact List.append_ne_nil_of_right_ne_nil folder.toList (List.cons_ne_nil _ _)

theorem isAbsolute_join {folder name : String} (hfolder : folder.isEmpty = false)
    (hname : IsPlain name) : isAbsolute (join folder name) = isAbsolute folder := by
  have hne : folder.toList ≠ [] := by
    intro hnil
    exact String.isEmpty_eq_false_iff.mp hfolder (String.toList_eq_nil_iff.mp hnil)
  have hhead : (join folder name).toList.head? = folder.toList.head? := by
    rcases join_cases hfolder hname with ⟨front, hfront, hjoin⟩ | hjoin
    · rw [hjoin, hfront]
      cases front <;> rfl
    · obtain ⟨c, cs, hcs⟩ := List.exists_cons_of_ne_nil hne
      rw [hjoin, hcs]
      rfl
  rw [isAbsolute, hhead, isAbsolute]

/-- A path into a folder has the parts of the folder's path, but for an empty one at the end, and the
    name. -/
theorem parts_join {folder name : String} (hfolder : folder.isEmpty = false) (hname : IsPlain name) :
    ∃ front, parts (join folder name) = front ++ [name] ∧
      (parts folder = front ∨ parts folder = front ++ [""]) := by
  have hcut : ∀ front : List Char, (front ++ '/' :: name.toList).foldr addChar [[]]
      = front.foldr addChar [[]] ++ [name.toList] := by
    intro front
    rw [cuts_addChar.foldr_append, cuts_addChar.foldr_of_not_mem hname.1]
  rcases join_cases hfolder hname with ⟨front, hfront, hjoin⟩ | hjoin
  · refine ⟨(front.foldr addChar [[]]).map String.ofList, ?_, .inr ?_⟩
    · rw [parts, hjoin, hcut, List.map_append]
      simp
    · rw [parts, hfront, cuts_addChar.foldr_append, List.map_append]
      rfl
  · refine ⟨parts folder, ?_, .inl rfl⟩
    rw [parts, hjoin, hcut, List.map_append]
    simp [parts]

end Path

namespace FileTree

variable {tree after : FileTree} {start place target : Place} {name : String}
  {change : Option FileTree → Option FileTree}

/-! ## Entries -/

/-- At this place is a folder. -/
def IsFolder (tree : FileTree) (place : Place) : Prop :=
  ∃ entries, tree.at? place = some (.folder entries)

theorem not_isFolder_file {content : ByteArray} {locked : Bool} (place : Place) :
    ¬ (FileTree.file content locked).IsFolder place := by
  rintro ⟨entries, hat⟩
  cases place with
  | nil => cases hat
  | cons name place => cases hat

theorem isFolder_nil (h : tree.IsFolder place) : tree.IsFolder [] := by
  cases tree with
  | file content locked => exact absurd h (not_isFolder_file place)
  | folder entries => exact ⟨entries, rfl⟩

theorem isFolder_cons_iff {entries : List (String × FileTree)} :
    (folder entries).IsFolder (name :: place) ↔
      ∃ inner, lookupEntry name entries = some inner ∧ inner.IsFolder place := by
  constructor
  · rintro ⟨found, hat⟩
    obtain ⟨inner, hentry, hinner⟩ := Option.bind_eq_some_iff.mp hat
    exact ⟨inner, hentry, found, hinner⟩
  · rintro ⟨inner, hentry, found, hinner⟩
    exact ⟨found, Option.bind_eq_some_iff.mpr ⟨inner, hentry, hinner⟩⟩

/-- What becomes of the entries of a folder when something in it is changed. -/
theorem alter_folder (change : Option FileTree → Option FileTree) (name : String) (place : Place)
    (entries : List (String × FileTree)) :
    ∃ after, (folder entries).alter change (name :: place) = .folder after ∧
      ∀ other, lookupEntry other after =
        if other = name then
          if place = [] then change (lookupEntry name entries)
          else (lookupEntry name entries).map (alter change place)
        else lookupEntry other entries := by
  cases place with
  | nil =>
    cases hchange : change (lookupEntry name entries) with
    | none =>
      refine ⟨entries.filter fun e => e.1 != name, by simp only [alter, hchange], fun other => ?_⟩
      rw [lookupEntry_filter, if_pos rfl]
    | some new =>
      refine ⟨insertEntry name new entries, by simp only [alter, hchange], fun other => ?_⟩
      rw [lookupEntry_insertEntry, if_pos rfl]
  | cons inner place =>
    rw [if_neg (List.cons_ne_nil inner place)]
    cases hentry : lookupEntry name entries with
    | none =>
      refine ⟨entries, by simp only [alter, hentry], fun other => ?_⟩
      by_cases ho : other = name
      · subst ho
        rw [hentry, if_pos rfl]
        rfl
      · rw [if_neg ho]
    | some old =>
      refine ⟨insertEntry name (alter change (inner :: place) old) entries,
        by simp only [alter, hentry], fun other => ?_⟩
      rw [lookupEntry_insertEntry]
      rfl

/-- Of the entries of a folder, a change makes one what it says and leaves the others. -/
theorem at?_alter (h : tree.IsFolder place) (name other : String) :
    (tree.alter change (place ++ [name])).at? (place ++ [other]) =
      if other = name then change (tree.at? (place ++ [name])) else tree.at? (place ++ [other]) := by
  induction place generalizing tree with
  | nil =>
    obtain ⟨entries, hentries⟩ := h
    obtain rfl := Option.some.inj hentries
    obtain ⟨after, hafter, hlookup⟩ := alter_folder change name [] entries
    have hat : ∀ key entries, (folder entries).at? [key] = lookupEntry key entries := by
      intro key entries
      rw [at?]
      cases lookupEntry key entries <;> rfl
    rw [List.nil_append, List.nil_append, hafter, hat, hat, hat, hlookup, if_pos rfl]
  | cons outer place ih =>
    cases tree with
    | file content locked => exact absurd h (not_isFolder_file _)
    | folder entries =>
      obtain ⟨inner, hentry, hinner⟩ := isFolder_cons_iff.mp h
      obtain ⟨after, hafter, hlookup⟩ := alter_folder change outer (place ++ [name]) entries
      have hfound := hlookup outer
      rw [if_pos rfl, if_neg (by simp), hentry] at hfound
      have hat : ∀ place, (folder entries).at? (outer :: place) = inner.at? place := by
        intro place
        rw [at?, hentry, Option.bind_some]
      rw [List.cons_append, List.cons_append, hafter, at?, hfound, hat, hat]
      exact ih hinner

/-- No folder is lost when what is changed is none. -/
theorem isFolder_alter {q : Place} (h : ¬ tree.IsFolder place) (hq : tree.IsFolder q) :
    (tree.alter change place).IsFolder q := by
  induction place generalizing tree q with
  | nil => exact absurd (isFolder_nil hq) h
  | cons name place ih =>
    cases tree with
    | file content locked => exact absurd hq (not_isFolder_file q)
    | folder entries =>
      obtain ⟨after, hafter, hlookup⟩ := alter_folder change name place entries
      rw [hafter]
      cases q with
      | nil => exact ⟨after, rfl⟩
      | cons other q =>
        obtain ⟨inner, hentry, hinner⟩ := isFolder_cons_iff.mp hq
        have hfound := hlookup other
        by_cases ho : other = name
        · subst ho
          have hchanged : ¬ inner.IsFolder place := fun hplace =>
            h (isFolder_cons_iff.mpr ⟨inner, hentry, hplace⟩)
          have hinside : place ≠ [] := by
            rintro rfl
            exact hchanged (isFolder_nil hinner)
          rw [if_pos rfl, if_neg hinside, hentry] at hfound
          exact isFolder_cons_iff.mpr ⟨_, hfound, ih hchanged hinner⟩
        · rw [if_neg ho, hentry] at hfound
          exact isFolder_cons_iff.mpr ⟨inner, hfound, hinner⟩

/-! ## Walking -/

theorem requireFolder_iff : tree.requireFolder place = .ok () ↔ tree.IsFolder place := by
  unfold requireFolder IsFolder
  split
  · next entries hat => exact ⟨fun _ => ⟨entries, hat⟩, fun _ => rfl⟩
  · next content locked hat => simp [hat]
  · next hat => simp [hat]

/-- Where a part of a path leads from a place. -/
def follow (place : Place) (part : String) : Place :=
  if part = "" ∨ part = "." then place else if part = ".." then place.dropLast else place ++ [part]

theorem walk_cons_iff {part : String} {parts : List String} :
    tree.walk start (part :: parts) = .ok target ↔
      tree.IsFolder start ∧ tree.walk (follow start part) parts = .ok target := by
  have hwalk : tree.walk start (part :: parts)
      = tree.requireFolder start >>= fun _ => tree.walk (follow start part) parts := by
    rw [walk, follow]
    split
    · rfl
    · split <;> rfl
  rw [hwalk, ← requireFolder_iff]
  cases tree.requireFolder start with
  | ok _ => exact ⟨fun h => ⟨rfl, h⟩, And.right⟩
  | error e =>
    constructor
    · intro h
      cases h
    · rintro ⟨h, -⟩
      cases h

theorem walk_append_iff {front parts : List String} :
    tree.walk start (front ++ parts) = .ok target ↔
      ∃ place, tree.walk start front = .ok place ∧ tree.walk place parts = .ok target := by
  induction front generalizing start with
  | nil =>
    constructor
    · intro h
      exact ⟨start, rfl, h⟩
    · rintro ⟨place, hplace, h⟩
      obtain rfl := Except.ok.inj hplace
      exact h
  | cons part front ih =>
    rw [List.cons_append, walk_cons_iff, ih]
    constructor
    · rintro ⟨hfolder, place, hplace, h⟩
      exact ⟨place, walk_cons_iff.mpr ⟨hfolder, hplace⟩, h⟩
    · rintro ⟨place, hplace, h⟩
      obtain ⟨hfolder, hplace⟩ := walk_cons_iff.mp hplace
      exact ⟨hfolder, place, hplace, h⟩

theorem walk_mono {parts : List String} (hfolders : ∀ q, tree.IsFolder q → after.IsFolder q)
    (h : tree.walk start parts = .ok target) : after.walk start parts = .ok target := by
  induction parts generalizing start with
  | nil => exact h
  | cons part parts ih =>
    obtain ⟨hfolder, hrest⟩ := walk_cons_iff.mp h
    exact walk_cons_iff.mpr ⟨hfolders start hfolder, ih hrest⟩

theorem follow_of_plain (h : Path.IsPlain name) (place : Place) : follow place name = place ++ [name] := by
  rw [follow, if_neg (not_or.mpr ⟨h.2.1, h.2.2.1⟩), if_neg h.2.2.2]

/-- A path into a folder leads to the entry of that name. -/
theorem locate_join {current : Place} {path : String} (hpath : path.isEmpty = false)
    (hname : Path.IsPlain name) (h : tree.locate current path = .ok place)
    (hfolder : tree.IsFolder place) :
    tree.locate current (Path.join path name) = .ok (place ++ [name]) := by
  obtain ⟨front, hjoin, hparts⟩ := Path.parts_join hpath hname
  have hfront : tree.walk (if Path.isAbsolute path then [] else current) front = .ok place := by
    rw [locate] at h
    rcases hparts with hparts | hparts
    · rwa [hparts] at h
    · -- the empty part stays where it is
      rw [hparts, walk_append_iff] at h
      obtain ⟨reached, hreached, hstay⟩ := h
      obtain ⟨-, hstay⟩ := walk_cons_iff.mp hstay
      obtain rfl := Except.ok.inj hstay
      exact hreached
  rw [locate, Path.isAbsolute_join hpath hname, hjoin, walk_append_iff]
  exact ⟨place, hfront, walk_cons_iff.mpr ⟨hfolder, by rw [follow_of_plain hname, walk]⟩⟩

end FileTree

end Backlog
