/-
  No item is lost.

  Specification: take any run of the coordinator over a store whose calls are carried out or fail
  without effect, and stop it anywhere, also between two calls of one command.  Every ID that was in
  the store at the start, or was given out since, is in the store.

  The crux is one invariant for every moment: an ID that is known stays known in each state that a
  transaction passes through.  It rests on the order of the writes.  What a decision takes out of the
  active items is in the archive before they are saved (`knows_of_passes`).
-/
import Backlog.Proofs.Coordinator.Lone
import Backlog.Proofs.Coordinator.Rehearsed

namespace Backlog

/-- Every ID of a kind is in the store. -/
def Contents.Holds (known : String → Prop) (c : Contents) : Prop := ∀ id, known id → c.Knows id

namespace Coordinator

variable {settings : Settings} {now : Stamp} {command : Command} {head : Option String}

/-! ## One transaction -/

theorem knows_of_active {α : Type} {d : Decision α} {c : Contents} {id : String}
    (h : id ∈ ids (d.retired.toList ++ d.items)) :
    ((c.file d.retired).replace d.items).Knows id := by
  rw [ids_append] at h
  rcases List.mem_append.mp h with h | h
  · -- the retired item was archived just before
    refine Or.inr ?_
    show id ∈ ids (c.archive ++ d.retired.toList)
    rw [ids_append]
    exact List.mem_append_right _ h
  · exact Or.inl h

/-- Whatever a transaction passes through, no ID is lost there. -/
theorem knows_of_passes {c c' : Contents} {id : String} (h : c.Knows id)
    (hpasses : Section.Passes (decision settings now head command c) c c') : c'.Knows id := by
  have harchive : ∀ d : Decision command.Value, id ∈ ids c.archive →
      id ∈ ids (c.file d.retired).archive := by
    intro d h
    rw [Contents.archive_file, ids_append]
    exact List.mem_append_left _ h
  cases hpasses with
  | met => exact h
  | @filed d _ => exact h.imp (fun h => h) (harchive d)
  | @saved d hd =>
    rcases h with h | h
    · -- an active item is still active, or it was retired
      obtain ⟨created, hperm, -⟩ := Command.perm_ids_decide hd
      exact knows_of_active (hperm.mem_iff.mpr (List.mem_append_left _ h))
    · exact Or.inr (harchive d h)

/-- The contents that a transaction leaves are among those that it passes through. -/
theorem passes_of_section {α : Type} {readsArchive : Bool}
    {decision : Except CommandError (Decision α)} {c c' : Contents} {ended : Except Talk.Stop α}
    {calls : List Call} (h : Section readsArchive decision c ended c' calls) : Section.Passes decision c c' := by
  cases h with
  | unread => exact .met
  | unconsulted => exact .met
  | unfiled => exact .met
  | refused => exact .met
  | unsaved hd => exact .filed hd
  | saved hd => exact .saved hd

/-- The IDs that an accepted command gives out are in the store when its transaction is over. -/
theorem knows_of_issued {c c' : Contents} {ended : Except Talk.Stop command.Value}
    {calls : List Call} {value : command.Value} {answer : command.Answer} {id : String}
    (h : Section command.readsArchive (decision settings now head command c) c ended c' calls)
    (hended : ended = .ok value)
    (htells : command.Tells head value answer) (hid : id ∈ command.issued answer) :
    c'.Knows id := by
  cases h with
  | @saved d _ hd =>
    cases hended
    obtain ⟨created, hperm, hcreated, -⟩ := Command.perm_ids_decide hd
    rw [hcreated answer htells] at hid
    exact knows_of_active (hperm.mem_iff.mpr (List.mem_append_right _ hid))
  | _ => cases hended

/-! ## One command -/

/-- The IDs that a reply gives out. -/
def Turn.issued (t : Turn) : List String :=
  match t.reply with
  | .ok answer => t.command.issued answer
  | .error _ => []

/-- What is known before a command is known at every moment of it, and in the end so are the IDs
    that its reply gives out. -/
theorem frame_holds (known : String → Prop) :
    Frame settings now command (Script.World.recorded Contents.Answers)
      (fun s => s.1.Holds known) (fun s => s.1.Holds known)
      (fun head result s => s.1.Holds known ∧ ∀ value answer, result = .ok value →
        command.Tells head value answer → ∀ id ∈ command.issued answer, s.1.Knows id) := by
  refine Frame.lone (fun c => c.Holds known) (fun c _ => c.Holds known)
    (fun head result c _ => c.Holds known ∧ ∀ value answer, result = .ok value →
        command.Tells head value answer → ∀ id ∈ command.issued answer, c.Knows id)
    (fun _ _ h => h) (fun _ _ _ _ h => h.1) ?_ ?_
  · intro head c _ c' h hpasses id hid
    exact knows_of_passes (h id hid) hpasses
  · intro head c _ ended c' calls h hsection
    have hholds : c'.Holds known := fun id hid =>
      knows_of_passes (h id hid) (passes_of_section hsection)
    refine ⟨⟨hholds, fun value answer hresult htells id hid => ?_⟩, fun _ _ => hholds⟩
    rcases ended with stop | result
    · rcases stop with e | message <;> cases hresult
    · cases hresult
      exact knows_of_issued hsection rfl htells hid

theorem ensures_holds (known : String → Prop) (c : Coordinator) {store : Contents}
    (h : store.Holds known) :
    (submit settings now command c).Ensures (Script.World.recorded Contents.Answers)
      (fun s => s.1.Holds known)
      (fun p s => ∀ answer, p.1 = .ok answer → ∀ id ∈ command.issued answer, s.1.Knows id)
      (store, []) := by
  refine ((frame_holds known).ensures_submit c h).mono ?_
  rintro ⟨reply, c'⟩ s - hsettled answer hanswer id hid
  rcases hsettled with ⟨-, ⟨e, herror⟩ | ⟨-, hnone⟩⟩ | ⟨-, head, result, ⟨-, hissued⟩, hreports⟩
  · rw [herror] at hanswer
    cases hanswer
  · rw [hnone answer hanswer] at hid
    cases hid
  · rw [show reply = .ok answer from hanswer] at hreports
    rcases result with e | value
    · exact hreports.elim
    · exact hissued value answer rfl hreports id hid

/-! ## Every run -/

/-- The IDs that the replies of these turns have given out. -/
def issued (turns : List Turn) : List String := turns.flatMap Turn.issued

/-- At every moment of a command, what was known before it is known. -/
theorem holds_of_leads {known : String → Prop} {c : Coordinator} {store after : Contents}
    {log : List Exchange} {rest : Talk (Except CommandError command.Answer × Coordinator)}
    (hcommand : (submit settings now command c).Leads log rest)
    (hstore : Script.World.Takes Contents.Answers store log after) (h : store.Holds known) :
    after.Holds known := by
  obtain ⟨record, hrecorded, -⟩ := Script.World.takes_recorded hstore []
  exact ((ensures_holds known c h).of_leads hcommand hrecorded).holds

/-- After a command the IDs that its reply gives out are known too. -/
theorem knows_of_leads {c : Coordinator} {store after : Contents} {t : Turn} {between : Coordinator}
    (hturn : (submit settings t.now t.command c).Leads t.log (.done (t.reply, between)))
    (hstore : Script.World.Takes Contents.Answers store t.log after) :
    ∀ id ∈ t.issued, after.Knows id := by
  intro id hid
  obtain ⟨record, hrecorded, -⟩ := Script.World.takes_recorded hstore []
  have hnothing : store.Holds fun _ => False := fun _ h => h.elim
  have hissued := (ensures_holds _ c hnothing).post_of_leads hturn hrecorded
  unfold Turn.issued at hid
  split at hid
  · next answer hreply => exact hissued answer hreply id hid
  · cases hid

/-- After every turn, what was known before or was given out is known. -/
theorem holds_of_serves {known : String → Prop} {c₀ c : Coordinator} {turns : List Turn}
    {store after : Contents} (hturns : Serves settings c₀ turns c)
    (hstore : Script.World.Takes Contents.Answers store (talk turns) after)
    (h : store.Holds known) : after.Holds fun id => known id ∨ id ∈ issued turns := by
  induction hturns generalizing store known with
  | idle c =>
    cases hstore
    intro id hid
    rcases hid with hid | hid
    · exact h id hid
    · cases hid
  | @turn c between _ t turns hturn _ ih =>
    rw [talk_cons] at hstore
    obtain ⟨middle, hfirst, hrest⟩ := Script.World.takes_append.mp hstore
    have hmiddle : middle.Holds fun id => known id ∨ id ∈ t.issued := by
      rintro id (hid | hid)
      · exact holds_of_leads hturn hfirst h id hid
      · exact knows_of_leads hturn hfirst id hid
    have hafter := ih hrest hmiddle
    intro id hid
    refine hafter id ?_
    -- known from the start, given out in this turn, or in a later one
    rcases hid with hid | hid
    · exact Or.inl (Or.inl hid)
    · rcases List.mem_append.mp hid with hid | hid
      · exact Or.inl (Or.inr hid)
      · exact Or.inr hid

/-- No item is ever lost: after any turns, and at any moment of the next command, every ID that was
    in the store or was given out is in the store. -/
theorem nothing_lost {c₀ c : Coordinator} {turns : List Turn} {store after : Contents}
    {log : List Exchange} {rest : Talk (Except CommandError command.Answer × Coordinator)}
    (hturns : Serves settings c₀ turns c)
    (hcommand : (submit settings now command c).Leads log rest)
    (hstore : Script.World.Takes Contents.Answers store (talk turns ++ log) after) :
    ∀ id, store.Knows id ∨ id ∈ issued turns → after.Knows id := by
  obtain ⟨between, hturns', hlog⟩ := Script.World.takes_append.mp hstore
  exact holds_of_leads hcommand hlog (holds_of_serves hturns hturns' fun _ h => h)

/-- A new item, and then one that was archived and could not be taken out of the active set. -/
theorem nothing_lost_rehearsed :
    let created := Turn.rehearsed {} ⟨1, 0⟩ (.ingest [{ title := "Follow up" }]) {} .sample
    let between := rehearsed {} ⟨1, 0⟩ (.ingest [{ title := "Follow up" }]) {} .sample
    let ended := rehearsed {} ⟨2, 0⟩ (.archive "WRK-1") between.1.2 between.2.withoutSaves
    (Rehearsal.sample.contents.Knows "WRK-1" ∧ "WRK-2" ∈ issued [created]) ∧
      ended.2.contents.Knows "WRK-1" ∧ ended.2.contents.Knows "WRK-2" := by
  intro created between ended
  have hold : Rehearsal.sample.contents.Knows "WRK-1" := Or.inl (by decide)
  have hnew : "WRK-2" ∈ issued [created] := by decide +kernel
  have hstore : Script.World.Takes Contents.Answers Rehearsal.sample.contents
      (talk [created] ++ rehearsedLog {} ⟨2, 0⟩ (.archive "WRK-1") between.1.2
        between.2.withoutSaves) ended.2.contents := by
    refine Script.World.takes_append.mpr ⟨between.2.withoutSaves.contents, ?_, takes_rehearsed ..⟩
    rw [talk_cons, talk_nil, List.append_nil]
    exact takes_rehearsed ..
  have hkept := nothing_lost (serves_rehearsed ..) (leads_rehearsed ..) hstore
  exact ⟨⟨hold, hnew⟩, hkept _ (.inl hold), hkept _ (.inr hnew)⟩

end Coordinator

end Backlog
