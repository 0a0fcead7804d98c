/-
  What a command does to the active items.

  Specification: while no one else writes to the store, a command that was served has left the active
  items as they were, or replaced them by what it decides on them (`Applied`).  Which calls of the
  store or of version control fail does not matter, nor how often the command was tried again.

  With it a fact about the items over a run is a fact about decisions: what every decision keeps holds
  after every run.
-/
import Backlog.Proofs.Coordinator.Lone

namespace Backlog

namespace Coordinator

variable {settings : Settings} {now : Stamp} {command : Command}

/-- The active items after a command, given those before and its reply. -/
inductive Applied (settings : Settings) (now : Stamp) (items : List Item) :
    (command : Command) → Except CommandError command.Answer → List Item → Prop
  /-- An error leaves them as they were. -/
  | refused {command : Command} {e : CommandError} : Applied settings now items command (.error e) items
  /-- The command is one that only reads, or had nothing to write. -/
  | unwritten {command : Command} {answer : command.Answer} :
      command.writes = false → Applied settings now items command (.ok answer) items
  /-- They are what the command has decided. -/
  | decided {command : Command} {answer : command.Answer} {head : Option String}
      {archived : List String} {d : Decision command.Value} :
      command.decide settings now head items archived = .ok d → command.Tells head d.value answer →
      Applied settings now items command (.ok answer) d.items

/-- The active items after a transaction with this result. -/
def Transacted (settings : Settings) (now : Stamp) (command : Command) (items : List Item)
    (head : Option String) (result : Except CommandError command.Value) (after : List Item) : Prop :=
  match result with
  | .error _ => after = items
  | .ok value => ∃ archived d, command.decide settings now head items archived = .ok d ∧
      d.value = value ∧ after = d.items

/-- A transaction that fails leaves the active items as they were, for the next try too. -/
theorem frame_transacted (items : List Item) :
    Frame settings now command (Script.World.recorded Contents.Answers) (fun _ => True)
      (fun s => s.1.active = items)
      (fun head result s => Transacted settings now command items head result s.1.active) := by
  refine Frame.lone (fun _ => True) (fun c _ => c.active = items)
    (fun head result c _ => Transacted settings now command items head result c.active)
    (fun _ _ _ => trivial) (fun _ _ _ _ _ => trivial) (fun _ _ _ _ _ _ => trivial) ?_
  intro head c made ended c' calls h hsection
  have hstopped : ∀ stop : Talk.Stop, Transacted settings now command items head
      (Talk.outcome command.operation (.error stop)) c.active := by
    intro stop
    obtain ⟨e, he⟩ := Talk.outcome_error command.operation stop
    rw [he]
    exact h
  cases hsection with
  | unread => exact ⟨hstopped _, fun _ _ => h⟩
  | unconsulted => exact ⟨hstopped _, fun _ _ => h⟩
  | unfiled => exact ⟨hstopped _, fun _ _ => h⟩
  | refused => exact ⟨hstopped _, fun _ _ => h⟩
  | unsaved => exact ⟨hstopped _, fun _ _ => h⟩
  | @saved d _ hd =>
    rw [decision, h] at hd
    exact ⟨⟨_, d, hd, rfl, rfl⟩, by rintro _ ⟨⟩⟩

/-- What a turn has done to the active items. -/
theorem applied_of_leads {t : Turn} {c between : Coordinator} {before after : Contents}
    (hturn : (submit settings t.now t.command c).Leads t.log (.done (t.reply, between)))
    (hstore : Script.World.Takes Contents.Answers before t.log after) :
    Applied settings t.now before.active t.command t.reply after.active := by
  obtain ⟨record, hrecorded, -⟩ := Script.World.takes_recorded hstore []
  have hstart : before.active = before.active := rfl
  have hsettled := ((frame_transacted before.active).ensures_submit c hstart).post_of_leads hturn
    hrecorded
  generalize t.reply = reply at hsettled
  rcases hsettled with ⟨hsame, ⟨e, he⟩ | ⟨hwrites, -⟩⟩ | ⟨-, head, result, hresult, hreports⟩
  · have hactive : after.active = before.active := hsame
    rw [hactive, show reply = .error e from he]
    exact .refused
  · have hactive : after.active = before.active := hsame
    rw [hactive]
    cases reply with
    | error e => exact .refused
    | ok answer => exact .unwritten hwrites
  · cases result with
    | error e =>
      have hactive : after.active = before.active := hresult
      cases reply with
      | error e' =>
        rw [hactive]
        exact .refused
      | ok answer => exact hreports.elim
    | ok value =>
      obtain ⟨archived, d, hd, rfl, hactive⟩ := hresult
      cases reply with
      | error e => exact hreports.elim
      | ok answer =>
        rw [show after.active = d.items from hactive]
        exact .decided hd hreports

/-- What every command keeps of the active items, with the turns before it in view, holds after every
    run. -/
theorem keeps_of_serves {I : List Turn → List Item → Prop} {c c' : Coordinator} {turns : List Turn}
    {start after : Contents}
    (hkeeps : ∀ earlier, ∀ t ∈ turns, ∀ items changed,
      Applied settings t.now items t.command t.reply changed → I earlier items →
        I (earlier ++ [t]) changed)
    (hturns : Serves settings c turns c')
    (hstore : Script.World.Takes Contents.Answers start (talk turns) after) (h : I [] start.active) :
    I turns after.active := by
  induction hturns generalizing start I with
  | idle c =>
    cases hstore
    exact h
  | @turn c between _ t turns hturn _ ih =>
    rw [talk_cons] at hstore
    obtain ⟨middle, hfirst, hrest⟩ := Script.World.takes_append.mp hstore
    have hmiddle : I [t] middle.active :=
      hkeeps [] t List.mem_cons_self _ _ (applied_of_leads hturn hfirst) h
    -- the rest of the run is one whose turns come after this one
    refine ih (I := fun earlier => I (t :: earlier)) (fun earlier u hu => ?_) hrest hmiddle
    exact hkeeps (t :: earlier) u (List.mem_cons_of_mem _ hu)

/-- An ID that at most one item has at the start is never that of two. -/
theorem count_ids_of_serves {c c' : Coordinator} {turns : List Turn} {start after : Contents}
    (hturns : Serves settings c turns c')
    (hstore : Script.World.Takes Contents.Answers start (talk turns) after) {id : String}
    (hunique : (ids start.active).count id ≤ 1) : (ids after.active).count id ≤ 1 := by
  refine keeps_of_serves (I := fun _ items => (ids items).count id ≤ 1) ?_ hturns hstore hunique
  intro _ t _ items changed happlied hitems
  generalize t.reply = reply at happlied
  cases happlied with
  | refused => exact hitems
  | unwritten => exact hitems
  | decided hd => exact Command.count_ids_decide hd hitems

end Coordinator

end Backlog
