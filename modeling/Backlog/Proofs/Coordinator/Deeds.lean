/-
  The deeds of a coordinator.

  Program: a command changes one item, merges two, retires one or makes new ones, each time on the
  list of all items.

  Specification: whatever a run of a coordinator has made of the active items, each of them is what a
  draft describes after some deeds (`Item.HasPast`), so what every deed keeps holds in every run.  In
  particular the native fields and the entries of such an item tell the same, be it that these deeds
  were done to it alone or that it comes from a run (`Item.tellsTheSame_after`).

  Which calls of the store fail, and how often a command was tried again, does not matter: that is
  known of all that a command does to the items (`Applied`).
-/
import Backlog.Proofs.Coordinator.Applied
import Backlog.Proofs.Coordinator.Rehearsed
import Backlog.Proofs.Item.Consistent

namespace Backlog

/-- The item is what a draft describes after some deeds. -/
def Item.HasPast (item : Item) : Prop :=
  ∃ (draft : Draft) (id : String) (created : Stamp) (deeds : List Deed),
    item = (draft.item id created).after deeds

namespace Item

variable {item changed : Item} {now : Stamp}

theorem HasPast.on (h : item.HasPast) (deed : Deed) : (deed.on item).HasPast := by
  obtain ⟨draft, id, created, deeds, rfl⟩ := h
  refine ⟨draft, id, created, deeds ++ [deed], ?_⟩
  rw [after, after, List.foldl_append]
  rfl

theorem hasPast_draft (draft : Draft) (id : String) (created : Stamp) :
    (draft.item id created).HasPast :=
  ⟨draft, id, created, [], rfl⟩

theorem HasPast.tellsTheSame (h : item.HasPast) : item.TellsTheSame := by
  obtain ⟨draft, id, created, deeds, rfl⟩ := h
  exact (consistent_after draft id created deeds).tellsTheSame

/-- Updates that were accepted are one deed each. -/
theorem after_updates {updates : List Update}
    (h : item.applyUpdates now updates = (.ok (), changed)) :
    changed = item.after (updates.map (.update now)) := by
  induction updates generalizing item with
  | nil =>
    cases h
    rfl
  | cons u us ih =>
    simp only [applyUpdates] at h
    split at h
    · next between hupdate =>
      rw [ih h, List.map_cons, after, after, List.foldl_cons, Deed.on, hupdate]
    · cases h

end Item

variable {settings : Coordinator.Settings} {now : Stamp} {items : List Item} {p : Item → Prop}

/-! ## One command -/

/-- What a command may do to one of the active items. -/
inductive Command.Does (settings : Coordinator.Settings) (now : Stamp) (head : Option String)
    (item : Item) : Command → Deed → Prop where
  | update {id : String} {updates : List Update} {u : Update} : item.id = id → u ∈ updates →
      Does settings now head item (.update id updates) (.update now u)
  | promote {id : String} : item.id = id →
      Does settings now head item (.promote id) (.promote now settings.pipelines)
  | start {id : String} {revision : Option String} : item.id = id →
      Does settings now head item (.startPhase id revision) (.start now (revision.or head))
  | record {run : PhaseRun} : item.id = run.item → Does settings now head item (.completePhase run)
      (.record now run.phase run.outcome settings.pipelines)
  | unblock {id : String} {context : Option String} : item.id = id →
      Does settings now head item (.unblock id context) (.unblock now context)
  | absorb {source target : String} (leaving : Item) :
      Does settings now head item (.merge source target) (.absorb now leaving)
  /-- The target itself is not made to depend on the target. -/
  | redirect {source target : String} : item.id ≠ target →
      Does settings now head item (.merge source target) (.redirect now source target)

/-- A change that comes to some deeds keeps what these deeds keep of an item with the ID. -/
theorem forall_of_ofChange {α : Type} {other : String} {change : Change α} {d : Decision α}
    (deeds : List Deed)
    (hdeed : ∀ item, item.id = other → ∀ deed ∈ deeds, p item → p (Deed.on item deed))
    (hchange : ∀ item a changed, change item = (.ok a, changed) → changed = item.after deeds)
    (hd : Decision.ofChange (changeItem other change items) = .ok d) (h : ∀ item ∈ items, p item) :
    ∀ item ∈ d.items, p item := by
  obtain ⟨hchanged, -⟩ := Decision.eq_of_ofChange hd
  refine forall_changeItem (fun item changed hid hstep hitem => ?_) hchanged h
  have hkept : (item.after deeds).id = other ∧ p (item.after deeds) := by
    refine Item.after_keeps_of_mem (I := fun i => i.id = other ∧ p i) ?_ ⟨hid, hitem⟩
    rintro i deed hmem ⟨hi, hp⟩
    exact ⟨(Item.id_eq_of_identity (deed.identity_on i)).trans hi, hdeed i hi deed hmem hp⟩
  rw [hchange item _ changed hstep]
  exact hkept.2

/-- A change that comes to one deed keeps what that deed keeps of an item with the ID. -/
theorem forall_of_ofChange_deed {α : Type} {other : String} {change : Change α} {d : Decision α}
    (deed : Deed) (hdeed : ∀ item, item.id = other → p item → p (Deed.on item deed))
    (hchange : ∀ item, deed.on item = (change item).2)
    (hd : Decision.ofChange (changeItem other change items) = .ok d) (h : ∀ item ∈ items, p item) :
    ∀ item ∈ d.items, p item := by
  refine forall_of_ofChange [deed] (fun item hid d hmem => ?_) (fun item a changed hstep => ?_) hd h
  · rw [List.mem_singleton.mp hmem]
    exact hdeed item hid
  · calc changed = (change item).2 := (congrArg Prod.snd hstep).symm
      _ = deed.on item := (hchange item).symm

/-- What all that a command does keeps, and every item it makes has, is so of all items after it. -/
theorem forall_decide {command : Command} {head : Option String} {archived : List String}
    {d : Decision command.Value}
    (hdeed : ∀ item deed, command.Does settings now head item deed → p item → p (Deed.on item deed))
    (hdraft : ∀ (draft : Draft) id, p (draft.item id now))
    (hd : command.decide settings now head items archived = .ok d) (h : ∀ item ∈ items, p item) :
    ∀ item ∈ d.items, p item := by
  cases command with
  | snapshot =>
    cases hd
    exact h
  | flush =>
    cases hd
    exact h
  | update other updates =>
    refine forall_of_ofChange (updates.map (.update now)) (fun item hid deed hmem => ?_)
      (fun _ _ _ hstep => Item.after_updates (Item.applyAll_inv hstep).1) hd h
    obtain ⟨u, hu, rfl⟩ := List.mem_map.mp hmem
    exact hdeed item _ (.update hid hu)
  | promote other =>
    exact forall_of_ofChange_deed (.promote now settings.pipelines)
      (fun item hid => hdeed item _ (.promote hid)) (fun _ => rfl) hd h
  | startPhase other revision =>
    exact forall_of_ofChange_deed (.start now (revision.or head))
      (fun item hid => hdeed item _ (.start hid)) (fun _ => rfl) hd h
  | completePhase run =>
    exact forall_of_ofChange_deed (.record now run.phase run.outcome settings.pipelines)
      (fun item hid => hdeed item _ (.record hid)) (fun _ => rfl) hd h
  | unblock other context =>
    exact forall_of_ofChange_deed (.unblock now context)
      (fun item hid => hdeed item _ (.unblock hid)) (fun _ => rfl) hd h
  | archive other =>
    obtain ⟨retired, hretire, -⟩ := Decision.eq_of_ofRetirement hd
    exact forall_retireItem hretire h
  | ingest drafts =>
    obtain ⟨created, hcreated, rfl⟩ := Decision.eq_of_ofCreation hd
    exact List.forall_mem_append.mpr ⟨h, forall_createItems hdraft hcreated⟩
  | merge source target =>
    obtain ⟨retired, hfold, -⟩ := Decision.eq_of_ofRetirement hd
    refine forall_foldInto (fun leaving item => hdeed item _ (.absorb leaving)) (fun item hitem => ?_)
      hfold h
    rw [Item.retarget]
    split
    · exact hitem
    · next hother => exact hdeed item _ (.redirect hother) hitem

/-! ## Whole runs -/

namespace Coordinator

variable {c c' : Coordinator} {turns : List Turn} {start after : Contents}

/-- What all that the commands do keeps, and every item they make has, is so of all active items after
    a run. -/
theorem forall_of_serves
    (hdeed : ∀ t ∈ turns, ∀ head item deed, t.command.Does settings t.now head item deed →
      p item → p (Deed.on item deed))
    (hdraft : ∀ t ∈ turns, ∀ (draft : Draft) id, p (draft.item id t.now))
    (hturns : Serves settings c turns c')
    (hstore : Script.World.Takes Contents.Answers start (talk turns) after)
    (h : ∀ item ∈ start.active, p item) : ∀ item ∈ after.active, p item := by
  refine keeps_of_serves (I := fun _ items => ∀ item ∈ items, p item) ?_ hturns hstore h
  intro _ t ht items changed happlied hitems
  have hdeed' := hdeed t ht
  generalize t.reply = reply at happlied
  cases happlied with
  | refused => exact hitems
  | unwritten => exact hitems
  | decided hd => exact forall_decide (hdeed' _) (hdraft t ht) hd hitems

/-- The active items have a past after a run if they had one before. -/
theorem hasPast_of_serves (hturns : Serves settings c turns c')
    (hstore : Script.World.Takes Contents.Answers start (talk turns) after)
    (h : ∀ item ∈ start.active, item.HasPast) : ∀ item ∈ after.active, item.HasPast :=
  forall_of_serves (fun _ _ _ _ deed _ hitem => hitem.on deed)
    (fun t _ draft id => Item.hasPast_draft draft id t.now) hturns hstore h

end Coordinator

/-! ## What is told twice -/

namespace Item

/-- Whatever is done to an item from its beginning, accepted or refused, its native fields and its
    entries tell the same, and it keeps its ID and the time when it was made. In every run from an empty
    store the native fields and the entries of all active items tell the same. -/
theorem tellsTheSame_after (draft : Draft) (id : String) (created : Stamp) (deeds : List Deed) :
    ((draft.item id created).after deeds).TellsTheSame ∧
      ((draft.item id created).after deeds).id = id ∧
      ((draft.item id created).after deeds).createdAt = created ∧
      ∀ (settings : Coordinator.Settings) (c c' : Coordinator) (turns : List Coordinator.Turn)
          (start after : Contents), Coordinator.Serves settings c turns c' →
        Script.World.Takes Contents.Answers start (Coordinator.talk turns) after →
        start.active = [] → ∀ item ∈ after.active, item.TellsTheSame := by
  have hidentity : ((draft.item id created).after deeds).identity = (draft.item id created).identity :=
    after_keeps (I := fun item => item.identity = (draft.item id created).identity)
      (fun item deed h => (Deed.identity_on deed item).trans h) rfl deeds
  rw [draft.identity_item] at hidentity
  refine ⟨(consistent_after draft id created deeds).tellsTheSame, congrArg Prod.fst hidentity,
    congrArg Prod.snd hidentity, fun settings c c' turns start after hturns hstore hempty => ?_⟩
  have hpast : ∀ item ∈ start.active, item.HasPast := by
    rw [hempty]
    exact fun _ hitem => absurd hitem List.not_mem_nil
  exact fun item hitem => (Coordinator.hasPast_of_serves hturns hstore hpast item hitem).tellsTheSame

/-- An item is made and promoted, and another one is made and blocked. -/
def lively : List (Stamp × Command) :=
  [(⟨1, 0⟩, .ingest [{ title := "Add caching" }, { title := "Add paging" }]),
    (⟨2, 0⟩, .promote "WRK-1"), (⟨3, 0⟩, .update "WRK-2" [.setBlocked "which pages?" none])]

/-- One of them is in its first phase after that, and the other one remembers where it was blocked. -/
theorem tellsTheSame_after_lively :
    (Coordinator.rehearsedAfter {} {} {} lively).2.contents.active.map
        (fun item => (item.id, item.status, item.nativeBlockedFrom))
      = [("WRK-1", .scoping, none), ("WRK-2", .blocked, some .todo)] ∧
    ∀ item ∈ (Coordinator.rehearsedAfter {} {} {} lively).2.contents.active, item.TellsTheSame := by
  obtain ⟨-, -, -, hruns⟩ := tellsTheSame_after { title := "Add caching" } "WRK-1" ⟨1, 0⟩ []
  exact ⟨by decide +kernel, hruns {} _ _ _ _ _ (Coordinator.serves_rehearsedTurns {} {} {} lively)
    (Coordinator.takes_rehearsedTurns {} {} {} lively) rfl⟩

end Item

end Backlog
