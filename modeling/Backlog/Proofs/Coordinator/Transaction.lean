/-
  The locked section of a command.

  Program: five kinds of commands change the store, and each of them does so in the same way.  Under
  the lock it loads the items, decides on what it has loaded, archives what the decision retires and
  saves the new list.  `transact` is that section, `Command.decide` the decision of each command, a
  pure function of what was loaded.

  Specification: an accepted command answers with what its transaction resulted in (`Tells`), and a
  refused one with the error that its transaction ended in (`Reports`).

  The crux is that the section is one definition.  Facts about the store are proved of `transact`,
  once for each world that it is put into, and not command by command.
-/
import Backlog.Proofs.Coordinator.Turns
import Backlog.Proofs.Store.FreshIds

namespace Backlog

open Talk (Stop StoreTask)
open Talk.StoreTask (load save append archivedIds ofExcept locked)

/-- The change that an accepted phase completion makes, as a commit message lists it. -/
def PhaseRun.entry (completion : PhaseRun) : Batch.Entry :=
  ⟨completion.item, completion.phase ++ " " ++ completion.outcome.label⟩

/-! ## Decisions -/

/-- Whether a decision may come to the error. None is for want of the lock, or tells that the coordinator
    has halted. -/
def CommandError.isDecided : CommandError → Bool
  | .lockTimeout _ | .halted => false
  | .corrupt .. | .notInitialized _ | .idsExhausted .. | .storeCrashed _ | .itemNotFound _
  | .refused .. | .dependencyCycle .. | .unexpected _ => true

/-- What a command decides on the items that it has loaded. -/
structure Decision (α : Type) where
  value : α
  /-- The item that goes to the archive. -/
  retired : Option Item
  /-- The active items from then on. -/
  items : List Item

namespace Decision

/-- The decision to change items in their places. -/
def ofChange {α : Type} (r : Except CommandError (α × List Item)) :
    Except CommandError (Decision α) :=
  r.map fun (value, items) => { value, retired := none, items }

/-- The decision to retire an item. -/
def ofRetirement (r : Except CommandError (Item × List Item)) :
    Except CommandError (Decision Unit) :=
  r.map fun (retired, items) => { value := (), retired := some retired, items }

/-- The decision to put new items after the old ones. -/
def ofCreation (items : List Item) (r : Except CommandError (List Item)) :
    Except CommandError (Decision (List String)) :=
  r.map fun created => { value := ids created, retired := none, items := items ++ created }

theorem eq_of_ofChange {α : Type} {r : Except CommandError (α × List Item)} {d : Decision α}
    (h : ofChange r = .ok d) : r = .ok (d.value, d.items) ∧ d.retired = none := by
  rcases r with e | ⟨value, items⟩
  · cases h
  · cases h
    exact ⟨rfl, rfl⟩

theorem eq_of_ofChange_error {α : Type} {r : Except CommandError (α × List Item)}
    {e : CommandError} (h : ofChange r = .error e) : r = .error e := by
  rcases r with e' | ⟨value, items⟩
  · cases h
    rfl
  · cases h

theorem eq_of_ofRetirement {r : Except CommandError (Item × List Item)} {d : Decision Unit}
    (h : ofRetirement r = .ok d) : ∃ item, r = .ok (item, d.items) ∧ d.retired = some item := by
  rcases r with e | ⟨item, items⟩
  · cases h
  · cases h
    exact ⟨item, rfl, rfl⟩

theorem eq_of_ofRetirement_error {r : Except CommandError (Item × List Item)} {e : CommandError}
    (h : ofRetirement r = .error e) : r = .error e := by
  rcases r with e' | ⟨item, items⟩
  · cases h
    rfl
  · cases h

theorem eq_of_ofCreation {items : List Item} {r : Except CommandError (List Item)}
    {d : Decision (List String)} (h : ofCreation items r = .ok d) :
    ∃ created, r = .ok created ∧ d = ⟨ids created, none, items ++ created⟩ := by
  rcases r with e | created
  · cases h
  · cases h
    exact ⟨created, rfl, rfl⟩

theorem eq_of_ofCreation_error {items : List Item} {r : Except CommandError (List Item)}
    {e : CommandError} (h : ofCreation items r = .error e) : r = .error e := by
  rcases r with e' | created
  · cases h
    rfl
  · cases h

end Decision

open Decision (ofChange ofRetirement ofCreation)

namespace Command

/-- What the transaction of a command results in. -/
def Value : Command → Type
  | .update .. => Item
  | .promote _ => Progress
  | .startPhase .. => Unit
  | .completePhase _ => Recorded
  | .archive _ => Unit
  | .ingest _ => List String
  | .merge .. => Unit
  | .unblock .. => Status
  | .snapshot | .flush => Unit

/-- Whether an accepted command has saved the active items. -/
def writes : Command → Bool
  | .snapshot | .flush => false
  | .ingest drafts => !drafts.isEmpty
  | _ => true

/-- The name under which a crash in the transaction is reported. -/
def operation : Command → String
  | .snapshot => "get_snapshot"
  | .update .. => "update_item"
  | .promote _ => "promote"
  | .startPhase .. => "record_phase_start"
  | .completePhase _ => "complete_phase"
  | .flush => "flush_batch"
  | .archive _ => "archive_item"
  | .ingest _ => "ingest_follow_ups"
  | .merge .. => "merge_item"
  | .unblock .. => "unblock_item"

/-- Whether the transaction looks into the archive. -/
def readsArchive : Command → Bool
  | .ingest _ => true
  | _ => false

/-- What a command decides on the active items and the IDs in the archive, when `head` is the
    revision that version control named. A command that does not write leaves the items alone. -/
def decide (settings : Coordinator.Settings) (now : Stamp) (head : Option String) :
    (command : Command) → List Item → List String → Except CommandError (Decision command.Value)
  | .update id updates, items, _ => ofChange (changeItem id (Item.applyAll now updates) items)
  | .promote id, items, _ => ofChange (changeItem id (Item.promote now settings.pipelines) items)
  | .startPhase id revision, items, _ =>
    ofChange (changeItem id (Item.startPhase now (revision.or head)) items)
  | .completePhase completion, items, _ =>
    ofChange (changeItem completion.item
      (Item.recordOutcome now completion.phase completion.outcome settings.pipelines) items)
  | .archive id, items, _ => ofRetirement (retireItem id items)
  | .ingest drafts, items, archived =>
    ofCreation items (createItems now settings.stem items archived drafts)
  | .merge source target, items, _ => ofRetirement (foldInto now items source target)
  | .unblock id context, items, _ => ofChange (changeItem id (Item.unblock now context) items)
  | .snapshot, items, _ | .flush, items, _ => .ok { value := (), retired := none, items }

/-- The answer tells what the transaction resulted in. -/
def Tells (head : Option String) : (command : Command) → command.Value → command.Answer → Prop
  | .update .., item, answer => answer = item
  | .promote _, progress, answer => answer = progress
  | .startPhase _ revision, _, answer => answer = revision.or head
  | .completePhase completion, recorded, answer =>
    answer.status = recorded.status ∧ answer.progress = recorded.progress
      ∧ answer.destructive = completion.destructive
  | .ingest _, created, answer => answer = created
  | .unblock .., status, answer => answer = status
  | .archive _, _, _ | .merge .., _, _ | .snapshot, _, _ | .flush, _, _ => True

/-- The reply reports what came of the transaction. -/
def Reports (head : Option String) (command : Command) (result : Except CommandError command.Value)
    (reply : Except CommandError command.Answer) : Prop :=
  match result, reply with
  | .error e, .error e' => e' = e
  | .ok value, .ok answer => command.Tells head value answer
  | _, _ => False

/-- A reply accepts a command as its transaction did. -/
theorem isOk_of_reports {head : Option String} {command : Command}
    {result : Except CommandError command.Value} {reply : Except CommandError command.Answer}
    (h : command.Reports head result reply) : reply.isOk = result.isOk := by
  cases result with
  | error e =>
    cases reply with
    | error e' => rfl
    | ok answer => exact h.elim
  | ok value =>
    cases reply with
    | error e' => exact h.elim
    | ok answer => rfl

theorem eq_of_reports_error {head : Option String} {command : Command} {e : CommandError}
    {reply : Except CommandError command.Answer} (h : command.Reports head (.error e) reply) :
    reply = .error e := by
  cases reply with
  | error e' => exact congrArg _ h
  | ok answer => exact h.elim

/-- The IDs that an accepted command has given out. -/
def issued : (command : Command) → command.Answer → List String
  | .ingest _, created => created
  | .snapshot, _ | .update .., _ | .promote _, _ | .startPhase .., _ | .completePhase _, _
  | .flush, _ | .archive _, _ | .merge .., _ | .unblock .., _ => []

/-- The changes that an accepted command has made, as a commit message lists them. -/
def entries : (command : Command) → command.Answer → Batch
  | .update id updates, _ => [⟨id, s!"updated ({updates.length} changes)"⟩]
  | .promote id, progress => [⟨id, "promoted to " ++ progress.message⟩]
  | .startPhase id _, _ => [⟨id, "phase started"⟩]
  | .completePhase completion, _ => [completion.entry]
  | .archive id, _ => [⟨id, "archived"⟩]
  | .ingest _, created => created.map fun id => ⟨id, "created"⟩
  | .merge source target, _ => [⟨target, "absorbed " ++ source⟩]
  | .unblock id _, status => [⟨id, "unblocked to " ++ Text.word (show Status from status)⟩]
  | .snapshot, _ | .flush, _ => []

end Command

/-! ## What decisions leave -/

namespace Command

variable {settings : Coordinator.Settings} {now : Stamp} {head : Option String}

/-- A decision that changes an item in its place. -/
theorem perm_ids_ofChange {α : Type} {id : String} {change : Change α} {items : List Item}
    {d : Decision α} (hchange : change.KeepsIdentity)
    (h : ofChange (changeItem id change items) = .ok d) :
    (ids (d.retired.toList ++ d.items)).Perm (ids items ++ []) := by
  obtain ⟨hchanged, hretired⟩ := Decision.eq_of_ofChange h
  rw [hretired, Option.toList_none, List.nil_append, List.append_nil,
    ids_changeItem hchange hchanged]

/-- No decision loses an item: every ID is among the active ones or that of the retired item, and
    the new ones are those that the answer gives out. They were not taken before. -/
theorem perm_ids_decide {command : Command} {items : List Item} {archived : List String}
    {d : Decision command.Value} (h : command.decide settings now head items archived = .ok d) :
    ∃ created, (ids (d.retired.toList ++ d.items)).Perm (ids items ++ created) ∧
      (∀ answer, command.Tells head d.value answer → command.issued answer = created) ∧
      created.Nodup ∧ ∀ id ∈ created, id ∉ archived ∧ id ∉ ids items := by
  have hnone : ([] : List String).Nodup ∧ ∀ id ∈ ([] : List String), id ∉ archived ∧ id ∉ ids items :=
    ⟨.nil, fun _ hid => absurd hid List.not_mem_nil⟩
  cases command with
  | snapshot =>
    cases h
    exact ⟨[], by rw [List.append_nil]; exact .refl _, fun _ _ => rfl, hnone⟩
  | flush =>
    cases h
    exact ⟨[], by rw [List.append_nil]; exact .refl _, fun _ _ => rfl, hnone⟩
  | update id updates =>
    exact ⟨[], perm_ids_ofChange (Item.identity_applyAll now updates) h, fun _ _ => rfl, hnone⟩
  | promote id =>
    exact ⟨[], perm_ids_ofChange (Item.identity_promote now _) h, fun _ _ => rfl, hnone⟩
  | startPhase id revision =>
    exact ⟨[], perm_ids_ofChange (Item.identity_startPhase now _) h, fun _ _ => rfl, hnone⟩
  | completePhase completion =>
    exact ⟨[], perm_ids_ofChange (Item.identity_recordOutcome now _ _ _) h, fun _ _ => rfl, hnone⟩
  | unblock id context =>
    exact ⟨[], perm_ids_ofChange (Item.identity_unblock now context) h, fun _ _ => rfl, hnone⟩
  | archive id =>
    obtain ⟨item, hretire, hretired⟩ := Decision.eq_of_ofRetirement h
    refine ⟨[], ?_, fun _ _ => rfl, hnone⟩
    rw [hretired, List.append_nil]
    exact (perm_retireItem hretire).map Item.id
  | merge source target =>
    obtain ⟨item, hfold, hretired⟩ := Decision.eq_of_ofRetirement h
    refine ⟨[], ?_, fun _ _ => rfl, hnone⟩
    rw [hretired, List.append_nil]
    exact perm_ids_foldInto hfold
  | ingest drafts =>
    obtain ⟨created, hcreate, rfl⟩ := Decision.eq_of_ofCreation h
    refine ⟨ids created, ?_, fun _ htells => htells, fresh_createItems hcreate⟩
    show (ids (items ++ created)).Perm (ids items ++ ids created)
    rw [ids_append]

/-- A decision gives no ID to a second item. -/
theorem count_ids_decide {command : Command} {items : List Item} {archived : List String}
    {d : Decision command.Value} (h : command.decide settings now head items archived = .ok d)
    {id : String} (hunique : (ids items).count id ≤ 1) : (ids d.items).count id ≤ 1 := by
  obtain ⟨created, hperm, -, hnodup, hfresh⟩ := perm_ids_decide h
  have hcount := hperm.count_eq id
  rw [ids_append, List.count_append, List.count_append] at hcount
  by_cases hid : id ∈ created
  · have hold : (ids items).count id = 0 := List.count_eq_zero.mpr (hfresh id hid).2
    have hnew := List.nodup_iff_count.mp hnodup id
    omega
  · have hnew : created.count id = 0 := List.count_eq_zero.mpr hid
    omega

/-- The item that a command takes out of the active ones, if it is one that does so. -/
def retires (now : Stamp) : Command → List Item → Option Item
  | .archive id, items => (retireItem id items).toOption.map Prod.fst
  | .merge source target, items => (foldInto now items source target).toOption.map Prod.fst
  | _, _ => none

theorem retired_eq_retires {command : Command} {items : List Item} {archived : List String}
    {d : Decision command.Value} (h : command.decide settings now head items archived = .ok d) :
    d.retired = command.retires now items := by
  cases command with
  | archive id =>
    obtain ⟨item, hretire, hretired⟩ := Decision.eq_of_ofRetirement h
    rw [hretired, retires, hretire]
    rfl
  | merge source target =>
    obtain ⟨item, hfold, hretired⟩ := Decision.eq_of_ofRetirement h
    rw [hretired, retires, hfold]
    rfl
  | ingest drafts =>
    obtain ⟨created, -, rfl⟩ := Decision.eq_of_ofCreation h
    rfl
  | snapshot => cases h; rfl
  | flush => cases h; rfl
  | update id updates => exact (Decision.eq_of_ofChange h).2
  | promote id => exact (Decision.eq_of_ofChange h).2
  | startPhase id revision => exact (Decision.eq_of_ofChange h).2
  | completePhase completion => exact (Decision.eq_of_ofChange h).2
  | unblock id context => exact (Decision.eq_of_ofChange h).2

/-- The item that a command retires is an active one. -/
theorem mem_ids_of_retires {command : Command} {items : List Item} {item : Item}
    (h : command.retires now items = some item) : item.id ∈ ids items := by
  cases command with
  | archive id =>
    cases hretire : retireItem id items with
    | error e => rw [retires, hretire] at h; cases h
    | ok r =>
      rw [retires, hretire] at h
      cases h
      exact List.mem_map_of_mem ((perm_retireItem hretire).mem_iff.mp List.mem_cons_self)
  | merge source target =>
    cases hfold : foldInto now items source target with
    | error e => rw [retires, hfold] at h; cases h
    | ok r =>
      rw [retires, hfold] at h
      cases h
      exact (perm_ids_foldInto hfold).mem_iff.mp List.mem_cons_self
  | _ => cases h

/-- Commands that look into the archive retire nothing. -/
theorem retired_eq_none {command : Command} {items : List Item} {archived : List String}
    {d : Decision command.Value} (hreads : command.readsArchive = true)
    (h : command.decide settings now head items archived = .ok d) : d.retired = none := by
  rw [retired_eq_retires h]
  cases command with
  | ingest drafts => rfl
  | _ => cases hreads

/-- The other commands decide without it. -/
theorem decide_of_not_reads {command : Command} (hreads : command.readsArchive = false)
    (items : List Item) (archived archived' : List String) :
    command.decide settings now head items archived
      = command.decide settings now head items archived' := by
  cases command with
  | ingest drafts => cases hreads
  | _ => rfl

/-- A decision on active items alone that refuses the command is no reason to try again. -/
theorem category_decide {command : Command} {items : List Item} {archived : List String}
    {e : CommandError} (hreads : command.readsArchive = false)
    (h : command.decide settings now head items archived = .error e) : e.category = .skip := by
  cases command with
  | ingest drafts => cases hreads
  | snapshot => cases h
  | flush => cases h
  | archive id => exact category_retireItem (Decision.eq_of_ofRetirement_error h)
  | merge source target => exact category_foldInto (Decision.eq_of_ofRetirement_error h)
  | update id updates => exact category_changeItem (Decision.eq_of_ofChange_error h)
  | promote id => exact category_changeItem (Decision.eq_of_ofChange_error h)
  | startPhase id revision => exact category_changeItem (Decision.eq_of_ofChange_error h)
  | completePhase completion => exact category_changeItem (Decision.eq_of_ofChange_error h)
  | unblock id context => exact category_changeItem (Decision.eq_of_ofChange_error h)

/-- Whatever is decided, it is no error that a decision does not come to. -/
theorem isDecided_decide {command : Command} {items : List Item} {archived : List String}
    {e : CommandError} (h : command.decide settings now head items archived = .error e) :
    e.isDecided = true := by
  cases hreads : command.readsArchive with
  | false =>
    have hskip := category_decide hreads h
    cases e with
    | lockTimeout waitedMs => cases hskip
    | halted => cases hskip
    | _ => rfl
  | true =>
    cases command with
    | ingest drafts =>
      rcases error_createItems (Decision.eq_of_ofCreation_error h) with ⟨stem, rfl⟩ | ⟨stem, tried, rfl⟩
      · rfl
      · rfl
    | _ => cases hreads

end Command

/-- Of a changed item one knows the change, and other items are as they were. -/
theorem findItem_of_ofChange {α : Type} {id other : String} {items : List Item} {item : Item}
    {change : Change α} {d : Decision α}
    (hchange : change.KeepsIdentity) (hd : Decision.ofChange (changeItem other change items) = .ok d)
    (hfound : findItem id items = some item) :
    (other = id ∧ ∃ changed, change item = (.ok d.value, changed) ∧
      findItem id d.items = some changed) ∨
    (other ≠ id ∧ findItem id d.items = some item) := by
  obtain ⟨hchanged, -⟩ := Decision.eq_of_ofChange hd
  by_cases hid : other = id
  · subst hid
    obtain ⟨found, changed, hfound', hstep, hafter⟩ := findItem_changeItem hchange hchanged
    rw [hfound] at hfound'
    cases hfound'
    exact .inl ⟨rfl, changed, hstep, hafter⟩
  · exact .inr ⟨hid, (findItem_changeItem_of_ne hchange hid hchanged).trans hfound⟩

/-! ## The section under the lock -/

/-- Look into the archive, if asked to. -/
def Talk.StoreTask.lookUp (readsArchive : Bool) : StoreTask (List String) :=
  if readsArchive then archivedIds else pure []

/-- Archive an item, if there is one. -/
def Talk.StoreTask.retire : Option Item → StoreTask Unit
  | some item => append item
  | none => pure ()

open Talk.StoreTask (lookUp retire)

/-- Load, decide, archive what is retired, and save. -/
def transact {α : Type} (readsArchive : Bool)
    (decide : List Item → List String → Except CommandError (Decision α)) : StoreTask α := do
  let items ← load
  let archived ← lookUp readsArchive
  let decision ← ofExcept (decide items archived)
  retire decision.retired
  save decision.items
  return decision.value

/-- The transaction of a command. -/
def Command.transaction (settings : Coordinator.Settings) (now : Stamp) (head : Option String)
    (command : Command) : Talk (Except CommandError command.Value) :=
  Talk.withRetries settings.retry command.operation
    (locked (transact command.readsArchive (command.decide settings now head)))

/-! ## Each command runs its transaction -/

theorem ofExcept_map_bind {α β γ : Type} (r : Except CommandError α) (f : α → β)
    (k : β → StoreTask γ) : (ofExcept (r.map f) >>= k) = ofExcept r >>= fun a => k (f a) := by
  cases r <;> rfl

namespace Coordinator

theorem mutate_eq {α : Type} (settings : Settings) (operation id : String) (change : Change α) :
    mutate settings operation id change
      = Talk.withRetries settings.retry operation
          (locked (transact false fun items _ => ofChange (changeItem id change items))) := by
  simp only [mutate, transact, lookUp, ofChange, ofExcept_map_bind, retire, pure_bind,
    Bool.false_eq_true, if_false]

end Coordinator

end Backlog
