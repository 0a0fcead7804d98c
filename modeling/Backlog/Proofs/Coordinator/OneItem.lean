/-
  Commands about one item.

  Program: five of the commands load the active items, change the one with an ID and save the list.

  Specification: while no one else writes to the store, such a command saves the list once if it is
  accepted, with that item changed in its place and every other one as it was (`ChangesOne`), and not
  at all if it is refused.  Updates come to the item that they make from left to right, which is also
  the answer; if any of them is refused then nothing is saved, whatever was accepted before it
  (`touches_one_item`).

  The crux is that all five decide the same (`decide_of_subject?`): which change they make of their item
  matters to its fields alone.
-/
import Backlog.Proofs.Coordinator.Deeds
import Backlog.Proofs.Coordinator.Rehearsed
import Backlog.Proofs.Coordinator.Saves

namespace Backlog

/-- The item that a command is about, if it is one that changes an item in its place. -/
def Command.subject? : Command → Option String
  | .update id _ | .promote id | .startPhase id _ | .unblock id _ => some id
  | .completePhase run => some run.item
  | .snapshot | .flush | .archive _ | .ingest _ | .merge .. => none

/-! ## Updates in turn -/

namespace Item

variable {now : Stamp} {item after : Item}

/-- Each of the updates that are accepted together is accepted after those before it. -/
theorem accepted_of_applyUpdates {earlier later : List Update} {u : Update}
    (h : item.applyUpdates now (earlier ++ u :: later) = (.ok (), after)) :
    ((item.after (earlier.map (.update now))).applyUpdate now u).1 = .ok () := by
  induction earlier generalizing item with
  | nil =>
    simp only [List.nil_append, applyUpdates] at h
    split at h
    · next between hupdate => exact congrArg Prod.fst hupdate
    · cases h
  | cons v earlier ih =>
    simp only [List.cons_append, applyUpdates] at h
    split at h
    · next between hupdate =>
      have hbetween : Deed.on item (.update now v) = between := congrArg Prod.snd hupdate
      have hrest := ih h
      rw [← hbetween] at hrest
      exact hrest
    · cases h

end Item

/-! ## One item in its place -/

/-- The items after are those before, but for one that was changed into another with the same ID. -/
structure ChangesOne (id : String) (items : List Item) (item changed : Item) (after : List Item) :
    Prop where
  mem : item ∈ items
  id_eq : item.id = id
  identity : changed.id = item.id ∧ changed.createdAt = item.createdAt
  after_eq : after = items.map fun i => if i.id = id then changed else i

theorem changesOne_of_changeItem {α : Type} {id : String} {change : Change α} {items after : List Item}
    {a : α} (hkeeps : change.KeepsIdentity) (hdistinct : (ids items).Nodup)
    (h : changeItem id change items = .ok (a, after)) :
    ∃ item changed, change item = (.ok a, changed) ∧ ChangesOne id items item changed after := by
  obtain ⟨before, item, changed, behind, rfl, rfl, hbefore, hid, hstep⟩ := changeItem_inv h
  have hidentity : changed.identity = item.identity := by
    have hkept := hkeeps item
    rwa [hstep] at hkept
  have hbehind : ∀ i ∈ behind, i.id ≠ id := by
    rw [ids_append, List.nodup_append] at hdistinct
    obtain ⟨-, hcons, -⟩ := hdistinct
    intro i hi heq
    exact (List.nodup_cons.mp hcons).1 (hid ▸ heq ▸ List.mem_map_of_mem hi)
  have hsame : ∀ {others : List Item}, (∀ i ∈ others, i.id ≠ id) →
      others.map (fun i => if i.id = id then changed else i) = others := fun hothers =>
    List.map_congr_left (fun i hi => if_neg (hothers i hi)) |>.trans (List.map_id _)
  refine ⟨item, changed, hstep, List.mem_append_right _ List.mem_cons_self, hid,
    Prod.mk.inj hidentity, ?_⟩
  rw [List.map_append, List.map_cons, hsame hbefore, hsame hbehind, if_pos hid]

/-- A command about one item decides on a change of that item alone. -/
theorem decide_of_subject? {settings : Coordinator.Settings} {now : Stamp} {head : Option String}
    {command : Command} {id : String} (h : command.subject? = some id) :
    ∃ change : Change command.Value, change.KeepsIdentity ∧ ∀ items archived,
      command.decide settings now head items archived
        = Decision.ofChange (changeItem id change items) := by
  cases command with
  | update other updates =>
    cases h
    exact ⟨_, Item.identity_applyAll now updates, fun _ _ => rfl⟩
  | promote other =>
    cases h
    exact ⟨_, Item.identity_promote now settings.pipelines, fun _ _ => rfl⟩
  | startPhase other revision =>
    cases h
    exact ⟨_, Item.identity_startPhase now (revision.or head), fun _ _ => rfl⟩
  | completePhase run =>
    cases h
    exact ⟨_, Item.identity_recordOutcome now run.phase run.outcome settings.pipelines, fun _ _ => rfl⟩
  | unblock other context =>
    cases h
    exact ⟨_, Item.identity_unblock now context, fun _ _ => rfl⟩
  | snapshot | flush | archive | ingest | merge => cases h

theorem Command.writes_of_subject? {command : Command} {id : String} (h : command.subject? = some id) :
    command.writes = true := by
  cases command <;> first | rfl | cases h

/-! ## One save -/

/-- Of all the saves that were carried out there is one, of these items. -/
def SavesOnce (log : List Exchange) (items : List Item) : Prop :=
  ∃ first second, log = first ++ ⟨.save items, .ok ()⟩ :: second ∧
    savesMade first = 0 ∧ savesMade second = 0

theorem eq_save_of_isSave {x : Exchange} (h : x.isSave = true) :
    ∃ items, x = ⟨.save items, .ok ()⟩ := by
  obtain ⟨q, answer⟩ := x
  cases q with
  | save items =>
    cases answer with
    | ok u => exact ⟨items, rfl⟩
    | error fault => cases h
  | _ => cases h

/-- What was saved once is what is active then. -/
theorem savesOnce_of_takes {log : List Exchange} {before after : Contents} (hone : savesMade log = 1)
    (hstore : Script.World.Takes Contents.Answers before log after) : SavesOnce log after.active := by
  have hpos : 0 < log.countP Exchange.isSave := by
    rw [savesMade] at hone
    omega
  obtain ⟨x, hx, hsave⟩ := List.countP_pos_iff.mp hpos
  obtain ⟨items, rfl⟩ := eq_save_of_isSave hsave
  obtain ⟨first, second, rfl⟩ := List.append_of_mem hx
  have hparts : savesMade first + (savesMade second + 1) = 1 := by
    rw [savesMade, List.countP_append, List.countP_cons_of_pos hsave] at hone
    exact hone
  have hfirst : savesMade first = 0 := by omega
  have hsecond : savesMade second = 0 := by omega
  have hactive : after.active = items := by
    rw [Contents.active_of_takes hstore, activeAfter, List.foldl_append, List.foldl_cons]
    exact activeAfter_of_savesMade hsecond items
  exact ⟨first, second, by rw [hactive], hfirst, hsecond⟩

namespace Coordinator

variable {settings : Settings} {now : Stamp} {c c' : Coordinator} {log : List Exchange}
  {before after : Contents} {id : String}

/-- A command that was refused has saved nothing. -/
theorem nothing_saved_of_error {command : Command} {reply : Except CommandError command.Answer}
    {e : CommandError} (hcommand : (submit settings now command c).Leads log (.done (reply, c')))
    (hstore : Script.World.Takes Contents.Answers before log after) (hreply : reply = .error e) :
    savesMade log = 0 ∧ after.active = before.active := by
  subst hreply
  have hnone : savesMade log = 0 := savesMade_of_leads hcommand hstore
  refine ⟨hnone, ?_⟩
  rw [Contents.active_of_takes hstore, activeAfter_of_savesMade hnone]

/-- A command about one item that was accepted has changed that item alone. -/
theorem changesOne_of_leads {command : Command} {answer : command.Answer}
    (hsubject : command.subject? = some id)
    (hcommand : (submit settings now command c).Leads log (.done (.ok answer, c')))
    (hstore : Script.World.Takes Contents.Answers before log after)
    (hdistinct : (ids before.active).Nodup) :
    SavesOnce log after.active ∧
      ∃ item changed, ChangesOne id before.active item changed after.active := by
  have hwrites := Command.writes_of_subject? hsubject
  constructor
  · refine savesOnce_of_takes ?_ hstore
    rw [savesMade_of_leads hcommand hstore, hwrites]
    rfl
  · have happlied : Applied settings now before.active command (.ok answer) after.active :=
      @applied_of_leads _ ⟨now, command, log, .ok answer⟩ _ _ _ _ hcommand hstore
    clear hcommand
    generalize after.active = items at happlied
    cases happlied with
    | unwritten hreads =>
      rw [hwrites] at hreads
      cases hreads
    | decided hd =>
      obtain ⟨change, hkeeps, hdecide⟩ := decide_of_subject? hsubject
      rw [hdecide] at hd
      obtain ⟨item, changed, -, hone⟩ :=
        changesOne_of_changeItem hkeeps hdistinct (Decision.eq_of_ofChange hd).1
      exact ⟨item, changed, hone⟩

/-- Updates that were accepted have made their item what the answer shows. -/
theorem changesOne_of_update {updates : List Update} {answer : Item}
    (hcommand : (submit settings now (.update id updates) c).Leads log (.done (.ok answer, c')))
    (hstore : Script.World.Takes Contents.Answers before log after)
    (hdistinct : (ids before.active).Nodup) :
    ∃ item, ChangesOne id before.active item answer after.active ∧
      item.applyUpdates now updates = (.ok (), answer) := by
  have happlied : Applied settings now before.active (.update id updates) (.ok answer) after.active :=
    @applied_of_leads _ ⟨now, .update id updates, log, .ok answer⟩ _ _ _ _ hcommand hstore
  clear hcommand
  generalize after.active = items at happlied
  cases happlied with
  | unwritten hreads => cases hreads
  | @decided _ _ _ d hd htells =>
    obtain ⟨item, changed, hstep, hone⟩ := changesOne_of_changeItem (Item.identity_applyAll now updates)
      hdistinct (Decision.eq_of_ofChange hd).1
    obtain ⟨hupdates, hvalue⟩ := Item.applyAll_inv hstep
    obtain rfl : answer = changed := Eq.trans htells hvalue
    exact ⟨item, hone, hupdates⟩

/-- A command about one item saves the list once if it is accepted, and not at all if it is refused;
    the list then is the one before with that item changed in its place, which keeps its ID and the
    time that it was made at. What updates make of the item from left to right is saved and answered,
    and if one of them is refused then nothing is saved. -/
theorem touches_one_item (id : String)
    (hstore : Script.World.Takes Contents.Answers before log after)
    (hdistinct : (ids before.active).Nodup) :
    (∀ (command : Command) (reply : Except CommandError command.Answer), command.subject? = some id →
      (submit settings now command c).Leads log (.done (reply, c')) →
      (∀ e, reply = .error e → savesMade log = 0 ∧ after.active = before.active) ∧
      ∀ answer, reply = .ok answer → SavesOnce log after.active ∧
        ∃ item changed, ChangesOne id before.active item changed after.active) ∧
    ∀ (updates : List Update) (reply : Except CommandError Item),
      (submit settings now (.update id updates) c).Leads log (.done (reply, c')) →
      (∀ answer, reply = .ok answer → ∃ item, ChangesOne id before.active item answer after.active ∧
        answer = item.after (updates.map (.update now))) ∧
      ∀ item ∈ before.active, item.id = id → ∀ earlier u later e, updates = earlier ++ u :: later →
        ((item.after (earlier.map (.update now))).applyUpdate now u).1 = .error e →
        (∃ e, reply = .error e) ∧ savesMade log = 0 ∧ after.active = before.active := by
  constructor
  · intro command reply hsubject hcommand
    refine ⟨fun e hreply => nothing_saved_of_error hcommand hstore hreply, ?_⟩
    rintro answer rfl
    exact changesOne_of_leads hsubject hcommand hstore hdistinct
  · intro updates reply hcommand
    refine ⟨?_, fun item hitem hid earlier u later e hupdates hrefused => ?_⟩
    · rintro answer rfl
      obtain ⟨item, hone, hmade⟩ := changesOne_of_update hcommand hstore hdistinct
      exact ⟨item, hone, Item.after_updates hmade⟩
    · cases reply with
      | error e' =>
        exact ⟨⟨e', rfl⟩, nothing_saved_of_error hcommand hstore rfl⟩
      | ok answer =>
        -- the item that was changed is this one, and it would have refused
        obtain ⟨found, hone, hmade⟩ := changesOne_of_update hcommand hstore hdistinct
        obtain rfl : found = item := eq_of_id_eq hdistinct hone.mem hitem (hone.id_eq.trans hid.symm)
        subst hupdates
        rw [Item.accepted_of_applyUpdates hmade] at hrefused
        cases hrefused

/-- A store with two new items. -/
def pairSample : Rehearsal :=
  { active := [Draft.sample, Draft.item { title := "Add paging" } "WRK-2" ⟨0, 0⟩] }

/-- Updates of which each needs the one before it. -/
def chainedUpdates : List Update :=
  [.setPhase (some "research"), .transition .scoping, .setBlocked "which pages?" none,
    .setUnblockContext (some "all")]

/-- The second item takes the updates.  Without the block the last one is refused, and then not even
    its title is another. -/
theorem touches_one_item_rehearsed :
    (∃ item answer, ChangesOne "WRK-2" pairSample.contents.active item answer
        (rehearsed {} ⟨1, 0⟩ (.update "WRK-2" chainedUpdates) {} pairSample).2.contents.active ∧
      answer = item.after (chainedUpdates.map (.update ⟨1, 0⟩)) ∧ answer.title = "Add paging") ∧
    SavesOnce (rehearsedLog {} ⟨1, 0⟩ (.promote "WRK-1") {} pairSample)
      (rehearsed {} ⟨1, 0⟩ (.promote "WRK-1") {} pairSample).2.contents.active ∧
    (rehearsed {} ⟨1, 0⟩ (.update "WRK-2" [.setTitle "Add pages", .setUnblockContext (some "all")]) {}
      pairSample).2.contents.active = pairSample.contents.active := by
  have hdistinct : (ids pairSample.contents.active).Nodup := by decide +kernel
  refine ⟨?_, ?_, ?_⟩
  · have hshown : (rehearsed {} ⟨1, 0⟩ (.update "WRK-2" chainedUpdates) {} pairSample).1.1.toOption.map
        (fun item => Item.title item) = some "Add paging" := by
      decide +kernel
    obtain ⟨answer, hanswer, htitle⟩ := Option.map_eq_some_iff.mp hshown
    have hleads := leads_rehearsed_ok {} ⟨1, 0⟩ (.update "WRK-2" chainedUpdates) {} pairSample hanswer
    obtain ⟨-, hupdate⟩ := touches_one_item "WRK-2" (takes_rehearsed ..) hdistinct
    obtain ⟨haccepted, -⟩ := hupdate chainedUpdates _ hleads
    obtain ⟨item, hone, hmade⟩ := haccepted answer rfl
    exact ⟨item, answer, hone, hmade, htitle⟩
  · have hpromoted : (rehearsed {} ⟨1, 0⟩ (.promote "WRK-1") {} pairSample).1.1.toOption.map
        Progress.message = some "pre phase 'research'" := by
      decide +kernel
    obtain ⟨answer, hanswer, -⟩ := Option.map_eq_some_iff.mp hpromoted
    have hleads := leads_rehearsed_ok {} ⟨1, 0⟩ (.promote "WRK-1") {} pairSample hanswer
    obtain ⟨hcommand, -⟩ := touches_one_item "WRK-1" (takes_rehearsed ..) hdistinct
    exact ((hcommand (.promote "WRK-1") _ rfl hleads).2 answer rfl).1
  · obtain ⟨-, hupdate⟩ := touches_one_item "WRK-2" (takes_rehearsed ..) hdistinct
    obtain ⟨-, hrefused⟩ := hupdate [.setTitle "Add pages", .setUnblockContext (some "all")] _
      (leads_rehearsed {} ⟨1, 0⟩ _ {} pairSample)
    exact (hrefused _ (List.mem_cons_of_mem _ List.mem_cons_self) rfl [.setTitle "Add pages"] _ [] _ rfl
      rfl).2.2

end Coordinator

end Backlog
