/-
  What an item goes through over a run.

  Program: the coordinator changes an item by the commands that name it, and by merges, which may name
  any.

  Specification: the moments of an item are read off the turns of a run and the items at its start
  (`moments`).  As long as no turn takes the item out of the active set they are a life of it, from
  what it was at the start to what it is at the end (`life_of_serves`).  So what holds of every life
  holds of every run.

  What was active in between follows from what was saved (`activeAfter`), so the moments say nothing
  that is not in the turns.
-/
import Backlog.Proofs.Coordinator.Applied
import Backlog.Proofs.Item.Lives

namespace Backlog

/-! ## The active items along a run -/

/-- The active items after an exchange: those that were saved in it, if they were. -/
def Exchange.activeAfter (items : List Item) (x : Exchange) : List Item :=
  match x.saved with
  | some (saved, true) => saved
  | _ => items

/-- The active items after these exchanges. -/
def activeAfter (items : List Item) (log : List Exchange) : List Item :=
  log.foldl Exchange.activeAfter items

theorem Contents.active_of_answers {c after : Contents} {q : Request} {answer : q.Answer}
    (h : Contents.Answers c q answer after) :
    after.active = Exchange.activeAfter c.active ⟨q, answer⟩ := by
  cases q with
  | save items =>
    cases answer with
    | ok u =>
      obtain rfl : after = c.replace items := h
      rfl
    | error fault =>
      obtain rfl : after = c := h
      rfl
  | append item =>
    cases answer with
    | ok u =>
      obtain rfl : after = c.file (some item) := h
      rfl
    | error fault =>
      obtain rfl : after = c := h
      rfl
  | load => rw [h.1]; rfl
  | archivedIds => rw [h.1]; rfl
  | _ =>
    obtain rfl : after = c := h
    rfl

/-- What a store holds is what was saved last. -/
theorem Contents.active_of_takes {c after : Contents} {log : List Exchange}
    (h : Script.World.Takes Contents.Answers c log after) :
    after.active = activeAfter c.active log := by
  induction h with
  | stay => rfl
  | step hx _ ih => rw [ih, Contents.active_of_answers hx]; rfl

/-! ## Moments of commands -/

/-- What an item goes through in an accepted command, given what it was and what it is then. -/
def Command.moments (id : String) (now : Stamp) (before after : Item) : Command → List Moment
  | .update other updates => if other = id then before.stages now updates else []
  | .promote other => if other = id then [⟨before, .promoted, after⟩] else []
  | .startPhase other _ => if other = id then [⟨before, .started, after⟩] else []
  | .completePhase run => if run.item = id then [⟨before, .ran run.outcome, after⟩] else []
  | .unblock other context => if other = id then [⟨before, .unblocked context, after⟩] else []
  | .merge .. => [⟨before, .merged, after⟩]
  | .snapshot | .flush | .archive _ | .ingest _ => []

/-- A command that writes nothing changes no item. -/
theorem Command.moments_of_not_writes {command : Command} (h : command.writes = false) (id : String)
    (now : Stamp) (before after : Item) : command.moments id now before after = [] := by
  cases command with
  | snapshot | flush | ingest => rfl
  | _ => cases h

/-- Whether an accepted command takes an item out of the active set. -/
def Command.removes (id : String) : Command → Bool
  | .archive other => other = id
  | .merge source _ => source = id
  | _ => false

/-- Whether an accepted command unblocks an item. -/
def Command.unblocks (id : String) : Command → Bool
  | .unblock other _ => other = id
  | _ => false

namespace Coordinator

variable {settings : Settings} {now : Stamp} {id : String} {items : List Item} {item : Item}

namespace Turn

/-- The command was accepted. -/
def accepted (t : Turn) : Bool := t.reply.isOk

/-- The item was archived in this turn, or merged into another. -/
def removes (id : String) (t : Turn) : Bool := t.accepted && t.command.removes id

/-- The item was unblocked in this turn. -/
def unblocks (id : String) (t : Turn) : Bool := t.accepted && t.command.unblocks id

/-- What an item goes through in a turn, given the active items before it. -/
def moments (id : String) (items : List Item) (t : Turn) : List Moment :=
  match findItem id items, findItem id (activeAfter items t.log) with
  | some before, some after =>
    if t.accepted then t.command.moments id t.now before after else []
  | _, _ => []

end Turn

/-- What an item goes through in these turns, given the active items before them. -/
def moments (id : String) : List Item → List Turn → List Moment
  | _, [] => []
  | items, t :: turns => t.moments id items ++ moments id (activeAfter items t.log) turns

/-! ## They are a life -/

/-- A change of the item is one moment, or a few; a change of another one is none. -/
theorem life_of_ofChange {α : Type} {set : Pipelines} {other : String} {change : Change α}
    {d : Decision α} {ms : Item → List Moment} (hchange : change.KeepsIdentity)
    (hstep : ∀ changed, change item = (.ok d.value, changed) → Life set item (ms changed) changed)
    (hd : Decision.ofChange (changeItem other change items) = .ok d)
    (hfound : findItem id items = some item) :
    ∃ after, findItem id d.items = some after ∧
      Life set item (if other = id then ms after else []) after := by
  rcases findItem_of_ofChange hchange hd hfound with ⟨hid, changed, hchanged, hafter⟩ | ⟨hne, hafter⟩
  · refine ⟨changed, hafter, ?_⟩
    rw [if_pos hid]
    exact hstep changed hchanged
  · refine ⟨item, hafter, ?_⟩
    rw [if_neg hne]
    exact .ends item

/-- A single moment. -/
theorem life_of_happens {set : Pipelines} {event : Event} {after : Item}
    (h : Moment.Happens set ⟨item, event, after⟩) : Life set item [⟨item, event, after⟩] after :=
  .goesOn h (.ends after)

/-- What is decided about an item that stays is a life of it. -/
theorem life_of_decide {command : Command} {head : Option String} {archived : List String}
    {d : Decision command.Value} (hstays : command.removes id = false)
    (hfound : findItem id items = some item)
    (hd : command.decide settings now head items archived = .ok d) :
    ∃ after, findItem id d.items = some after ∧
      Life settings.pipelines item (command.moments id now item after) after := by
  cases command with
  | snapshot =>
    cases hd
    exact ⟨item, hfound, .ends item⟩
  | flush =>
    cases hd
    exact ⟨item, hfound, .ends item⟩
  | update other updates =>
    refine life_of_ofChange (Item.identity_applyAll now updates) (fun changed hchanged => ?_) hd hfound
    exact Item.life_stages (Item.applyAll_inv hchanged).1
  | promote other =>
    exact life_of_ofChange (Item.identity_promote now settings.pipelines)
      (fun changed hchanged => life_of_happens (.promoted hchanged)) hd hfound
  | startPhase other revision =>
    exact life_of_ofChange (Item.identity_startPhase now (revision.or head))
      (fun changed hchanged => life_of_happens (.started hchanged)) hd hfound
  | completePhase run =>
    exact life_of_ofChange
      (Item.identity_recordOutcome now run.phase run.outcome settings.pipelines)
      (fun changed hchanged => life_of_happens (.ran hchanged)) hd hfound
  | unblock other context =>
    exact life_of_ofChange (Item.identity_unblock now context)
      (fun changed hchanged => life_of_happens (.unblocked hchanged)) hd hfound
  | archive other =>
    obtain ⟨retired, hretire, -⟩ := Decision.eq_of_ofRetirement hd
    have hne : other ≠ id := of_decide_eq_false hstays
    exact ⟨item, (findItem_retireItem_of_ne hne hretire).trans hfound, .ends item⟩
  | merge source target =>
    obtain ⟨retired, hfold, -⟩ := Decision.eq_of_ofRetirement hd
    have hne : source ≠ id := of_decide_eq_false hstays
    obtain ⟨leaving, hafter⟩ := findItem_foldInto hne hfound hfold
    exact ⟨_, hafter, life_of_happens .merged⟩
  | ingest drafts =>
    obtain ⟨created, -, rfl⟩ := Decision.eq_of_ofCreation hd
    refine ⟨item, ?_, .ends item⟩
    show findItem id (items ++ created) = some item
    rw [findItem_append, hfound, Option.some_or]

/-- What a turn does to an item that stays is a life of it. -/
theorem life_of_leads {t : Turn} {c between : Coordinator} {before after : Contents}
    (hturn : (submit settings t.now t.command c).Leads t.log (.done (t.reply, between)))
    (hstore : Script.World.Takes Contents.Answers before t.log after)
    (hstays : t.removes id = false) (hfound : findItem id before.active = some item) :
    ∃ item', findItem id after.active = some item' ∧
      Life settings.pipelines item (t.moments id before.active) item' := by
  have happlied := applied_of_leads hturn hstore
  have hactive := Contents.active_of_takes hstore
  -- what the turn is about, and what it has left
  have hmoments : ∀ item', findItem id after.active = some item' → t.moments id before.active
      = if t.accepted then t.command.moments id t.now item item' else [] := by
    intro item' hafter
    rw [hactive] at hafter
    simp only [Turn.moments, hfound, hafter]
  rw [Turn.removes, Turn.accepted] at hstays
  rw [Turn.accepted] at hmoments
  generalize t.moments id before.active = ms at hmoments ⊢
  generalize t.reply = reply at happlied hstays hmoments
  generalize after.active = items at happlied hmoments ⊢
  cases happlied with
  | refused =>
    obtain rfl : ms = [] := hmoments item hfound
    exact ⟨item, hfound, .ends item⟩
  | unwritten hreads =>
    obtain rfl : ms = [] :=
      (hmoments item hfound).trans (Command.moments_of_not_writes hreads id t.now item item)
    exact ⟨item, hfound, .ends item⟩
  | decided hd =>
    obtain ⟨item', hafter, hlife⟩ := life_of_decide hstays hfound hd
    refine ⟨item', hafter, ?_⟩
    rw [hmoments item' hafter]
    exact hlife

/-- What a run does to an item that stays is a life of it. -/
theorem life_of_serves {c c' : Coordinator} {turns : List Turn} {start after : Contents}
    (hturns : Serves settings c turns c')
    (hstore : Script.World.Takes Contents.Answers start (talk turns) after)
    (hstays : ∀ t ∈ turns, t.removes id = false) (hfound : findItem id start.active = some item) :
    ∃ item', findItem id after.active = some item' ∧
      Life settings.pipelines item (moments id start.active turns) item' := by
  induction hturns generalizing start item with
  | idle =>
    cases hstore
    exact ⟨item, hfound, .ends item⟩
  | @turn c between c' t turns hturn _ ih =>
    rw [talk_cons] at hstore
    obtain ⟨middle, hfirst, hrest⟩ := Script.World.takes_append.mp hstore
    obtain ⟨moved, hmoved, hlife⟩ :=
      life_of_leads hturn hfirst (hstays t List.mem_cons_self) hfound
    obtain ⟨item', hafter, hlater⟩ :=
      ih hrest (fun u hu => hstays u (List.mem_cons_of_mem t hu)) hmoved
    rw [moments, ← Contents.active_of_takes hfirst]
    exact ⟨item', hafter, hlife.append hlater⟩

/-! ## Moments of one kind -/

theorem Item.event_of_mem_stages {updates : List Update} {m : Moment}
    (h : m ∈ item.stages now updates) : ∃ u, m.event = .updated u := by
  induction updates generalizing item with
  | nil => cases h
  | cons u us ih =>
    rcases List.mem_cons.mp h with rfl | h
    · exact ⟨u, rfl⟩
    · exact ih h

/-- An item is unblocked only in turns that unblock it. -/
theorem unblocks_of_mem_moments {t : Turn} {m : Moment} {context : Option String}
    (h : m ∈ t.moments id items) (hevent : m.event = .unblocked context) : t.unblocks id = true := by
  simp only [Turn.moments] at h
  split at h
  · next before after _ _ =>
    split at h
    · next haccepted =>
      rw [Turn.unblocks, haccepted, Bool.true_and]
      cases hcommand : t.command with
      | unblock other given =>
        rw [hcommand, Command.moments] at h
        split at h
        · next hid => exact decide_eq_true hid
        · cases h
      | update other updates =>
        rw [hcommand, Command.moments] at h
        split at h
        · obtain ⟨u, hu⟩ := Item.event_of_mem_stages h
          rw [hevent] at hu
          cases hu
        · cases h
      | merge source target =>
        rw [hcommand] at h
        obtain rfl := List.mem_singleton.mp h
        cases hevent
      | promote | startPhase | completePhase =>
        rw [hcommand, Command.moments] at h
        split at h
        · obtain rfl := List.mem_singleton.mp h
          cases hevent
        · cases h
      | snapshot | flush | archive | ingest =>
        rw [hcommand] at h
        cases h
    · cases h
  · cases h

theorem event_ne_unblocked {turns : List Turn} (hturns : ∀ t ∈ turns, t.unblocks id = false)
    {m : Moment} (h : m ∈ moments id items turns) (context : Option String) :
    m.event ≠ .unblocked context := by
  induction turns generalizing items with
  | nil => cases h
  | cons t turns ih =>
    rcases List.mem_append.mp h with h | h
    · intro hevent
      have hunblocks := unblocks_of_mem_moments h hevent
      rw [hturns t List.mem_cons_self] at hunblocks
      cases hunblocks
    · exact ih (fun u hu => hturns u (List.mem_cons_of_mem t hu)) h

end Coordinator

end Backlog
