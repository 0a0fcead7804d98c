/-
  A store in a folder reads back what it wrote.

  Program: a save writes a draft beside the active items and puts it in their place; an append adds a
  line to the archive; readers decode whatever bytes they find there.

  Specification: after any saves and appends the active items are those of the last save, the archive is
  what was appended in order, and the known IDs are those of both (`reads_back`).

  The crux is what the folder's files are at any time (`Holds`): the record of the active items, a line
  for each archived one, and no draft left over.  Every write keeps to that (`holds_carryOut`) and every
  reader only has to undo it.
-/
import Backlog.Proofs.Host.Folders
import Backlog.Proofs.Store.Contents
import Backlog.Proofs.Store.Texts

namespace Backlog.FolderStore

open Machine (FolderAt)

/-! ## Writes -/

/-- A call that writes to a store. -/
inductive Write where
  | save (items : List Item)
  | append (item : Item)

/-- Carry out a write. -/
def carryOut (store : FolderStore) : Write → Task Unit
  | .save items => store.save items
  | .append item => store.append item

/-- The items that a write replaces the active ones with. -/
def Write.saved : Write → Option (List Item)
  | .save items => some items
  | .append _ => none

/-- The item that a write adds to the archive. -/
def Write.archived : Write → Option Item
  | .save _ => none
  | .append item => some item

/-- The items of the last save, none before the first one. -/
def lastSaved (writes : List Write) : List Item :=
  (writes.filterMap Write.saved).getLast?.getD []

/-- The items that were added to the archive, in order. -/
def appended (writes : List Write) : List Item := writes.filterMap Write.archived

/-- The items that a write is about. -/
def Write.items : Write → List Item
  | .save items => items
  | .append item => [item]

/-- The contents that a write leaves. -/
def Write.leaves (c : Contents) : Write → Contents
  | .save items => c.replace items
  | .append item => c.file (some item)

/-! ## What the files are -/

variable {store : FolderStore} {place : FileTree.Place} {m : Machine} {c : Contents}

/-- The files of a store that holds these items. -/
structure Holds (store : FolderStore) (place : FileTree.Place) (m : Machine) (c : Contents) : Prop where
  root : m.FolderAt store.root place
  active : ∃ locked,
    m.entry place "items.json" = some (.file (Snapshot.render c.active).toUTF8 locked)
  draft : m.entry place "items.json.tmp" = none
  archive : (m.entry place "archive.jsonl" = none ∧ c.archive = []) ∨ ∃ locked,
    m.entry place "archive.jsonl" = some (.file (Archive.render c.archive).toUTF8 locked)

theorem plain_items : Path.IsPlain "items.json" := by decide

theorem plain_draft : Path.IsPlain "items.json.tmp" := by decide

theorem plain_archive : Path.IsPlain "archive.jsonl" := by decide

/-! ## Single steps -/

theorem run_requireRoot (h : m.FolderAt store.root place) :
    m.run store.requireRoot.run = (.ok (), m) := by
  rw [requireRoot, Host.run_bind_ok (Host.run_lift (Machine.run_kind h))]
  rfl

theorem run_onPath {α : Type} {path : String} {step : Host (Except String α)} {a : α} {after : Machine}
    (h : m.run step = (.ok a, after)) : m.run (onPath path step).run = (.ok a, after) :=
  Host.run_orFail h

/-! ## Reading -/

theorem run_load (h : store.Holds place m c) (hstorable : ∀ item ∈ c.active, item.Storable) :
    m.run store.load.run = (.ok c.active, m) := by
  obtain ⟨locked, hitems⟩ := h.active
  have hexists : m.run (Host.exists? store.itemsPath) = (true, m) := by
    rw [itemsPath, Machine.run_exists h.root plain_items, hitems]
    rfl
  have hread : m.run (Host.read store.itemsPath) = (.ok (Snapshot.render c.active).toUTF8, m) :=
    Machine.run_read h.root plain_items hitems
  have hitems : readItems store.itemsPath (Snapshot.render c.active) = .ok c.active := by
    rw [readItems, Snapshot.read_render hstorable]
    rfl
  simp only [load]
  rw [Host.run_bind_ok (run_requireRoot h.root), Host.run_bind_ok (Host.run_lift hexists), if_pos rfl,
    Host.run_bind_ok (run_onPath hread), decode_toUTF8, Host.run_bind_ok (Host.run_except _), hitems]
  rfl

theorem run_loadArchive (h : store.Holds place m c) (hstorable : ∀ item ∈ c.archive, item.Storable) :
    m.run store.loadArchive.run = (.ok c.archive, m) := by
  have hexists : m.run (Host.exists? store.archivePath) = ((m.entry place "archive.jsonl").isSome, m) :=
    Machine.run_exists h.root plain_archive
  simp only [loadArchive]
  rw [Host.run_bind_ok (run_requireRoot h.root), Host.run_bind_ok (Host.run_lift hexists)]
  rcases h.archive with ⟨hnone, hempty⟩ | ⟨locked, hfile⟩
  · rw [hnone, hempty]
    rfl
  · have hread : m.run (Host.read store.archivePath) = (.ok (Archive.render c.archive).toUTF8, m) :=
      Machine.run_read h.root plain_archive hfile
    rw [hfile, Option.isSome_some, if_pos rfl, Host.run_bind_ok (run_onPath hread),
      readLines_render hstorable]
    rfl

theorem run_knownIds (h : store.Holds place m c) (hactive : ∀ item ∈ c.active, item.Storable)
    (harchive : ∀ item ∈ c.archive, item.Storable) :
    m.run store.knownIds.run = (.ok (ids c.archive ++ ids c.active), m) := by
  have harchived : m.run store.archivedIds.run = (.ok (ids c.archive), m) := by
    rw [archivedIds, Host.run_bind_ok (run_loadArchive h harchive)]
    rfl
  rw [knownIds, Host.run_bind_ok harchived, Host.run_bind_ok (run_load h hactive)]
  rfl

/-! ## Writing -/

/-- A save in a folder where neither file is a folder. -/
theorem run_save (hroot : m.FolderAt store.root place) (hdraft : m.NoFolder place "items.json.tmp")
    (hitems : m.NoFolder place "items.json") (items : List Item) :
    ∃ after, m.run (store.save items).run = (.ok (), after) ∧ after.FolderAt store.root place ∧
      (∃ locked, after.entry place "items.json"
        = some (.file (Snapshot.render items).toUTF8 locked)) ∧
      after.entry place "items.json.tmp" = none ∧
      after.entry place "archive.jsonl" = m.entry place "archive.jsonl" := by
  obtain ⟨written, locked, hwrite, hdrafted⟩ :=
    Machine.run_write hroot plain_draft hdraft (Snapshot.render items)
  rw [← draftPath] at hwrite
  have hfree : written.NoFolder place "items.json" := by
    intro entries
    rw [hdrafted.entry, if_neg (by decide)]
    exact hitems entries
  have hthere : written.entry place "items.json.tmp"
      = some (.file (Snapshot.render items).toUTF8 locked) := by
    rw [hdrafted.entry, if_pos rfl]
  obtain ⟨between, after, hrename, htaken, hput⟩ :=
    Machine.run_rename hdrafted.root plain_draft plain_items (by decide) hthere hfree
  refine ⟨after, ?_, hput.root, ⟨locked, ?_⟩, ?_, ?_⟩
  · rw [save, Host.run_bind_ok (run_requireRoot hroot), Host.run_bind_ok (run_onPath hwrite)]
    exact run_onPath hrename
  · rw [hput.entry, if_pos rfl]
  · rw [hput.entry, if_neg (by decide), htaken.entry, if_pos rfl]
  · rw [hput.entry, if_neg (by decide), htaken.entry, if_neg (by decide), hdrafted.entry,
      if_neg (by decide)]

theorem holds_save (h : store.Holds place m c) (items : List Item) :
    ∃ after, m.run (store.save items).run = (.ok (), after) ∧
      store.Holds place after (c.replace items) := by
  obtain ⟨locked, hitems⟩ := h.active
  obtain ⟨after, hrun, hroot, hactive, hdraft, harchive⟩ :=
    run_save h.root (Machine.noFolder_none h.draft) (Machine.noFolder_file hitems) items
  exact ⟨after, hrun, hroot, hactive, hdraft, harchive ▸ h.archive⟩

theorem holds_append (h : store.Holds place m c) (item : Item) :
    ∃ after, m.run (store.append item).run = (.ok (), after) ∧
      store.Holds place after (c.file (some item)) := by
  have happended : ∃ after locked,
      m.run (Host.append store.archivePath (Archive.line item)) = (.ok (), after) ∧
        m.Becomes store.root place "archive.jsonl"
          (some (.file (Archive.render (c.archive ++ [item])).toUTF8 locked)) after := by
    rw [Archive.render_append]
    rcases h.archive with ⟨hnone, hempty⟩ | ⟨locked, hfile⟩
    · have hfirst : Archive.render [] ++ Archive.line item = Archive.line item :=
        String.empty_append
      rw [hempty, hfirst]
      exact Machine.run_append_none h.root plain_archive hnone (Archive.line item)
    · obtain ⟨after, hrun, hbecomes⟩ :=
        Machine.run_append_file h.root plain_archive hfile (Archive.line item)
      exact ⟨after, locked, hrun, hbecomes⟩
  obtain ⟨after, locked, hrun, hbecomes⟩ := happended
  refine ⟨after, ?_, hbecomes.root, ?_, ?_, .inr ⟨locked, ?_⟩⟩
  · rw [append, Host.run_bind_ok (run_requireRoot h.root)]
    exact run_onPath hrun
  · rw [hbecomes.entry, if_neg (by decide)]
    exact h.active
  · rw [hbecomes.entry, if_neg (by decide)]
    exact h.draft
  · rw [hbecomes.entry, if_pos rfl]
    rfl

/-- Every write succeeds, and the files are those of what the store holds then. -/
theorem holds_carryOut (h : store.Holds place m c) (write : Write) :
    ∃ after, m.run (store.carryOut write).run = (.ok (), after) ∧
      store.Holds place after (Write.leaves c write) := by
  cases write with
  | save items => exact holds_save h items
  | append item => exact holds_append h item

/-- So does every sequence of writes. -/
theorem holds_run (h : store.Holds place m c) (writes : List Write) :
    ∃ after, m.run (writes.forM store.carryOut).run = (.ok (), after) ∧
      store.Holds place after (writes.foldl Write.leaves c) := by
  induction writes generalizing m c with
  | nil => exact ⟨m, rfl, h⟩
  | cons write writes ih =>
    obtain ⟨between, hwrite, hbetween⟩ := holds_carryOut h write
    obtain ⟨after, hrest, hafter⟩ := ih hbetween
    refine ⟨after, ?_, hafter⟩
    rw [List.forM, Host.run_bind_ok hwrite]
    exact hrest

/-! ## A new store -/

theorem folderAt_of_requireRoot {after : Machine} (h : m.run store.requireRoot.run = (.ok (), after)) :
    ∃ place, m.FolderAt store.root place := by
  rw [requireRoot, Host.run_bind_ok (Host.run_lift (a := (m.run (Host.kind store.root)).1) rfl)] at h
  refine Machine.folderAt_of_kind ?_
  generalize (m.run (Host.kind store.root)).1 = kind at h
  cases kind with
  | none => cases h
  | some kind =>
    cases kind with
    | file => cases h
    | folder => rfl

/-- A save that succeeds was made in a folder whose draft was no folder. -/
theorem noFolder_of_save {items : List Item} {after : Machine}
    (h : m.run (store.save items).run = (.ok (), after)) :
    ∃ place, m.FolderAt store.root place ∧ m.NoFolder place "items.json.tmp" := by
  obtain ⟨_, _, hroot, -⟩ := Host.run_bind_inv h
  obtain ⟨place, hplace⟩ := folderAt_of_requireRoot hroot
  refine ⟨place, hplace, fun entries hentry => ?_⟩
  have hwrite : m.run (onPath store.draftPath
      (Host.write store.draftPath (Snapshot.render items))).run = (.error _, m) :=
    Host.run_orFail (Machine.run_write_folder hplace plain_draft hentry (Snapshot.render items))
  rw [save, Host.run_bind_ok (run_requireRoot hplace), Host.run_bind_error hwrite] at h
  cases h

/-- A new store without an archive holds nothing. -/
theorem holds_init {ready : Machine} (h : m.run store.init.run = (.ok true, ready))
    (harchive : (ready.run (Host.exists? store.archivePath)).1 = false) :
    ∃ place, store.Holds place ready ⟨[], []⟩ := by
  obtain ⟨_, made, -, hmade⟩ := Host.run_bind_inv h
  have hlook : made.run (Host.exists? store.itemsPath)
      = ((made.run (Host.exists? store.itemsPath)).1, made) := rfl
  rw [Host.run_bind_ok (Host.run_lift hlook)] at hmade
  cases hexists : (made.run (Host.exists? store.itemsPath)).1 with
  | true =>
    rw [hexists] at hmade
    cases hmade
  | false =>
    rw [hexists, if_neg (by decide)] at hmade
    obtain ⟨_, saved, hsave, hready⟩ := Host.run_bind_inv hmade
    obtain ⟨place, hroot, hdraft⟩ := noFolder_of_save hsave
    have hnone : made.entry place "items.json" = none := by
      rw [itemsPath, Machine.run_exists hroot plain_items] at hexists
      exact Option.isNone_iff_eq_none.mp (by simpa using hexists)
    obtain ⟨after, hafter, hroot, hactive, hdraft, -⟩ :=
      run_save hroot hdraft (Machine.noFolder_none hnone) []
    obtain rfl : after = ready := by
      rw [hafter] at hsave
      cases hsave
      cases hready
      rfl
    refine ⟨place, hroot, hactive, hdraft, .inl ⟨?_, rfl⟩⟩
    rw [archivePath, Machine.run_exists hroot plain_archive] at harchive
    exact Option.isNone_iff_eq_none.mp (by simpa using harchive)

/-! ## Contents after writes -/

theorem active_foldl (writes : List Write) (c : Contents) :
    (writes.foldl Write.leaves c).active
      = ((writes.filterMap Write.saved).getLast?).getD c.active := by
  induction writes generalizing c with
  | nil => rfl
  | cons write writes ih =>
    rw [List.foldl_cons, ih]
    cases write with
    | save items =>
      have hcons : (Write.save items :: writes).filterMap Write.saved
          = items :: writes.filterMap Write.saved := rfl
      rw [hcons, List.getLast?_cons]
      rfl
    | append item => rfl

theorem archive_foldl (writes : List Write) (c : Contents) :
    (writes.foldl Write.leaves c).archive = c.archive ++ appended writes := by
  induction writes generalizing c with
  | nil => exact (List.append_nil c.archive).symm
  | cons write writes ih =>
    rw [List.foldl_cons, ih]
    cases write with
    | save items => rfl
    | append item => exact List.append_assoc c.archive [item] (appended writes)

theorem storable_lastSaved {writes : List Write}
    (h : ∀ write ∈ writes, ∀ item ∈ write.items, item.Storable) :
    ∀ item ∈ lastSaved writes, item.Storable := by
  intro item hitem
  rw [lastSaved] at hitem
  cases hlast : (writes.filterMap Write.saved).getLast? with
  | none =>
    rw [hlast] at hitem
    cases hitem
  | some items =>
    rw [hlast] at hitem
    obtain ⟨write, hwrite, hsaved⟩ := List.mem_filterMap.mp (List.mem_of_getLast? hlast)
    cases write with
    | save saved =>
      obtain rfl := Option.some.inj hsaved
      exact h _ hwrite item hitem
    | append item => cases hsaved

theorem storable_appended {writes : List Write}
    (h : ∀ write ∈ writes, ∀ item ∈ write.items, item.Storable) :
    ∀ item ∈ appended writes, item.Storable := by
  intro item hitem
  obtain ⟨write, hwrite, harchived⟩ := List.mem_filterMap.mp hitem
  cases write with
  | save items => cases harchived
  | append archived =>
    obtain rfl := Option.some.inj harchived
    exact h _ hwrite archived (List.mem_singleton_self archived)

/-! ## Reading back -/

/-- A store reads back what was written to it: the active items are those of the last save, the archive
    is what was appended in order, and the known IDs are those of both. -/
theorem reads_back {machine ready : Machine} (hinit : machine.run store.init.run = (.ok true, ready))
    (harchive : (ready.run (Host.exists? store.archivePath)).1 = false) (writes : List Write)
    (hstorable : ∀ write ∈ writes, ∀ item ∈ write.items, item.Storable) :
    ∃ after, ready.run (writes.forM store.carryOut).run = (.ok (), after) ∧
      after.run store.load.run = (.ok (lastSaved writes), after) ∧
      after.run store.loadArchive.run = (.ok (appended writes), after) ∧
      ∃ known, after.run store.knownIds.run = (.ok known, after) ∧
        ∀ id, id ∈ known ↔ id ∈ ids (lastSaved writes) ∨ id ∈ ids (appended writes) := by
  obtain ⟨place, hready⟩ := holds_init hinit harchive
  obtain ⟨after, hrun, hholds⟩ := holds_run hready writes
  have hactive : (writes.foldl Write.leaves ⟨[], []⟩).active = lastSaved writes :=
    active_foldl writes ⟨[], []⟩
  have harchived : (writes.foldl Write.leaves ⟨[], []⟩).archive = appended writes :=
    archive_foldl writes ⟨[], []⟩
  have hsaved := storable_lastSaved hstorable
  have happended := storable_appended hstorable
  rw [← hactive] at hsaved
  rw [← harchived] at happended
  refine ⟨after, hrun, ?_, ?_, _, run_knownIds hholds hsaved happended, fun id => ?_⟩
  · rw [run_load hholds hsaved, hactive]
  · rw [run_loadArchive hholds happended, harchived]
  · rw [hactive, harchived, List.mem_append, or_comm]

/-- An item whose texts need escapes, with an empty description and nested extension entries. -/
def sampleItem : Item :=
  { Item.bare "A-1" "say \"hi\"\nand\u0001go" default with
    description := some "", tags := ["é\t"],
    extensions := Dict.ofList [("x", .array [.int (-3), .object [("a", .null), ("b", .text "\\")]])] }

/-- A machine on which a store was made in an empty folder. -/
def sampleReady : Machine := (({} : Machine).run (init ⟨"p", 5000⟩).run).2

theorem reads_back_sample : ∃ after,
    sampleReady.run ([Write.save [], .append { sampleItem with id := "A-2" }, .save [sampleItem]].forM
      (carryOut ⟨"p", 5000⟩)).run = (.ok (), after) ∧
    after.run (load ⟨"p", 5000⟩).run = (.ok [sampleItem], after) ∧
    after.run (loadArchive ⟨"p", 5000⟩).run = (.ok [{ sampleItem with id := "A-2" }], after) ∧
    ∃ known, after.run (knownIds ⟨"p", 5000⟩).run = (.ok known, after) ∧
      ∀ id, id ∈ known ↔ id ∈ ["A-1"] ∨ id ∈ ["A-2"] := by
  have hmade : (({} : Machine).run (init ⟨"p", 5000⟩).run).1 = .ok true := by rfl
  have hinit : ({} : Machine).run (init ⟨"p", 5000⟩).run = (.ok true, sampleReady) :=
    Prod.ext hmade rfl
  have hstorable : sampleItem.Storable := {
    priority := by decide
    shown := by decide
    created := by decide
    updated := by decide
    whole := by decide
    sorted := by decide
    nested := by decide }
  refine reads_back hinit (by decide +kernel) _ fun write hwrite item hitem => ?_
  simp only [List.mem_cons, List.not_mem_nil, or_false] at hwrite
  rcases hwrite with rfl | rfl | rfl
  · cases hitem
  · rw [List.mem_singleton.mp hitem]
    exact { hstorable with }
  · rw [List.mem_singleton.mp hitem]
    exact hstorable

end Backlog.FolderStore
