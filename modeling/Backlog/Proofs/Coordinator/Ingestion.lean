/-
  IDs that are given out once.

  Program: new items get IDs beside all those in the active set and in the archive, both read under the
  lock that the new items are saved under.

  Specification: take any run of the coordinator over a store whose calls are carried out or fail
  without effect.  The active IDs stay distinct at every moment, and an ingestion that is accepted puts
  one item for each draft after the ones that are there, under IDs that no item had at any moment of
  the run (`ingested_fresh`).

  The crux is that an ID which the store knew at some moment is known ever after
  (`knows_of_moment`), so what is fresh beside the store is fresh beside its whole past.
-/
import Backlog.Proofs.Coordinator.Conservation
import Backlog.Proofs.Coordinator.Saves

namespace Backlog

/-- Calls of the store take nothing out of the archive. -/
theorem Contents.mem_archive_of_takes {c after : Contents} {log : List Exchange} {item : Item}
    (h : Script.World.Takes Contents.Answers c log after) (hitem : item ∈ c.archive) :
    item ∈ after.archive := by
  induction h with
  | stay => exact hitem
  | @step c between after q answer log hx _ ih =>
    refine ih ?_
    cases q with
    | save items =>
      cases answer with
      | ok u =>
        obtain rfl : between = c.replace items := hx
        exact hitem
      | error fault =>
        obtain rfl : between = c := hx
        exact hitem
    | append filed =>
      cases answer with
      | ok u =>
        obtain rfl : between = c.file (some filed) := hx
        exact List.mem_append_left _ hitem
      | error fault =>
        obtain rfl : between = c := hx
        exact hitem
    | load => rw [hx.1]; exact hitem
    | archivedIds => rw [hx.1]; exact hitem
    | _ =>
      obtain rfl : between = c := hx
      exact hitem

namespace Coordinator

variable {settings : Settings} {now : Stamp} {command : Command}

/-! ## What was known once -/

/-- What the store knows at some moment of a command it knows after it. -/
theorem knows_of_turn {c c' : Coordinator} {reply : Except CommandError command.Answer}
    {first second : List Exchange} {before between after : Contents} {id : String}
    (hcommand : (submit settings now command c).Leads (first ++ second) (.done (reply, c')))
    (hfirst : Script.World.Takes Contents.Answers before first between)
    (hsecond : Script.World.Takes Contents.Answers between second after) (h : between.Knows id) :
    after.Knows id := by
  rcases h with h | h
  · rcases active_of_moment hcommand hfirst hsecond with hactive | hactive
    · -- it was known before the command, and no command loses it
      have hbefore : before.Holds fun known => known = id := by
        rintro known rfl
        rw [hactive] at h
        exact Or.inl h
      exact holds_of_leads hcommand (Script.World.takes_append.mpr ⟨between, hfirst, hsecond⟩)
        hbefore id rfl
    · rw [← hactive] at h
      exact Or.inl h
  · obtain ⟨item, hitem, rfl⟩ := List.mem_map.mp h
    exact Or.inr (List.mem_map_of_mem (Contents.mem_archive_of_takes hsecond hitem))

/-- What the store knows at some moment of a run it knows at its end. -/
theorem knows_of_moment {c c' : Coordinator} {turns : List Turn} {first second : List Exchange}
    {start between after : Contents} {id : String} (hturns : Serves settings c turns c')
    (hmoment : talk turns = first ++ second)
    (hfirst : Script.World.Takes Contents.Answers start first between)
    (hsecond : Script.World.Takes Contents.Answers between second after) (h : between.Knows id) :
    after.Knows id := by
  induction hturns generalizing start first with
  | idle c =>
    obtain ⟨rfl, rfl⟩ := List.append_eq_nil_iff.mp hmoment.symm
    cases hsecond
    exact h
  | @turn c middle c' t turns hturn hrest ih =>
    rw [talk_cons] at hmoment
    rcases List.append_eq_append_iff.mp hmoment with ⟨more, rfl, hlater⟩ | ⟨more, hlog, rfl⟩
    · -- the moment is in a later turn
      obtain ⟨reached, -, hmore⟩ := Script.World.takes_append.mp hfirst
      exact ih hlater hmore
    · -- the moment is in this turn
      obtain ⟨reached, hmore, hlater⟩ := Script.World.takes_append.mp hsecond
      rw [hlog] at hturn
      have hreached : reached.Holds fun known => known = id := by
        rintro known rfl
        exact knows_of_turn hturn hfirst hmore h
      exact holds_of_serves hrest hlater hreached id (.inl rfl)

/-! ## Distinct IDs -/

/-- Whatever a transaction passes through, no two active items have one ID there. -/
theorem nodup_of_passes {head : Option String} {c c' : Contents} (h : (ids c.active).Nodup)
    (hpasses : Section.Passes (decision settings now head command c) c c') :
    (ids c'.active).Nodup := by
  cases hpasses with
  | met => exact h
  | filed => exact h
  | saved hd =>
    refine List.nodup_iff_count.mpr fun id => ?_
    exact Command.count_ids_decide hd (List.nodup_iff_count.mp h id)

/-- At every moment of a command the active IDs are distinct, if they were before it. -/
theorem nodup_of_leads {c : Coordinator} {store after : Contents} {log : List Exchange}
    {rest : Talk (Except CommandError command.Answer × Coordinator)}
    (hcommand : (submit settings now command c).Leads log rest)
    (hstore : Script.World.Takes Contents.Answers store log after) (h : (ids store.active).Nodup) :
    (ids after.active).Nodup := by
  have hframe : Frame settings now command (Script.World.recorded Contents.Answers)
      (fun s => (ids s.1.active).Nodup) (fun s => (ids s.1.active).Nodup)
      (fun _ _ s => (ids s.1.active).Nodup) := by
    refine Frame.lone (fun c => (ids c.active).Nodup) (fun c _ => (ids c.active).Nodup)
      (fun _ _ c _ => (ids c.active).Nodup) (fun _ _ h => h) (fun _ _ _ _ h => h)
      (fun _ _ _ _ h hpasses => nodup_of_passes h hpasses) ?_
    intro head c _ ended c' calls h hsection
    have hafter : (ids c'.active).Nodup := nodup_of_passes h (passes_of_section hsection)
    exact ⟨hafter, fun _ _ => hafter⟩
  obtain ⟨record, hrecorded, -⟩ := Script.World.takes_recorded hstore []
  exact ((hframe.ensures_submit c h).of_leads hcommand hrecorded).holds

/-! ## Ingestions -/

/-- A command that looks into the archive is decided on the store as it was, and has replaced the
    active items if it was accepted. -/
theorem frame_consulted (hreads : command.readsArchive = true) (before : Contents) :
    Frame settings now command (Script.World.recorded Contents.Answers) (fun _ => True)
      (fun s => s.1 = before)
      (fun head result s => ∀ value, result = .ok value → ∃ d : Decision command.Value,
        decision settings now head command before = .ok d ∧ d.value = value ∧
          s.1 = before.replace d.items) := by
  refine Frame.lone (fun _ => True) (fun c _ => c = before)
    (fun head result c _ => ∀ value, result = .ok value → ∃ d : Decision command.Value,
      decision settings now head command before = .ok d ∧ d.value = value ∧
        c = before.replace d.items)
    (fun _ _ _ => trivial) (fun _ _ _ _ _ => trivial) (fun _ _ _ _ _ _ => trivial) ?_
  rintro head c made ended c' calls rfl hsection
  have hstopped : ∀ stop value,
      Talk.outcome (α := command.Value) command.operation (.error stop) ≠ .ok value := by
    intro stop value hvalue
    obtain ⟨e, he⟩ := Talk.outcome_error command.operation stop
    rw [he] at hvalue
    cases hvalue
  cases hsection with
  | unread => exact ⟨fun value h => absurd h (hstopped _ value), fun _ _ => rfl⟩
  | unconsulted => exact ⟨fun value h => absurd h (hstopped _ value), fun _ _ => rfl⟩
  | refused => exact ⟨fun value h => absurd h (hstopped _ value), fun _ _ => rfl⟩
  | unfiled => exact ⟨fun value h => absurd h (hstopped _ value), fun _ _ => rfl⟩
  | unsaved hd =>
    rw [Command.retired_eq_none hreads hd, Contents.file_none]
    exact ⟨fun value h => absurd h (hstopped _ value), fun _ _ => rfl⟩
  | @saved d _ hd =>
    rw [Command.retired_eq_none hreads hd, Contents.file_none]
    refine ⟨fun value h => ?_, by rintro _ ⟨⟩⟩
    cases h
    exact ⟨d, hd, rfl, rfl⟩

/-- An ingestion that is accepted puts one item for each draft after the ones that are there, under IDs
    that the store does not know. -/
theorem ingested_of_leads {drafts : List Draft} {created : List String} {c c' : Coordinator}
    {before after : Contents} {log : List Exchange}
    (hcommand : (submit settings now (.ingest drafts) c).Leads log (.done (.ok created, c')))
    (hstore : Script.World.Takes Contents.Answers before log after) :
    (∃ numbers : List Nat, numbers.length = drafts.length ∧
      created = numbers.map (IdSource.idOf settings.stem)) ∧
    after.active
      = before.active ++ List.zipWith (fun draft id => draft.item id now) drafts created ∧
    after.archive = before.archive ∧
    created.Nodup ∧ ∀ id ∈ created, ¬ before.Knows id := by
  obtain ⟨record, hrecorded, -⟩ := Script.World.takes_recorded hstore []
  have hsettled := ((frame_consulted rfl before).ensures_submit c rfl).post_of_leads hcommand hrecorded
  rcases hsettled with ⟨hsame, ⟨e, he⟩ | ⟨hwrites, hnone⟩⟩ | ⟨-, head, result, hresult, hreports⟩
  · cases he
  · -- there was nothing to ingest
    have hempty : drafts = [] := by
      have hnot : (!drafts.isEmpty) = false := hwrites
      exact List.isEmpty_iff.mp (by simpa using hnot)
    obtain rfl : created = [] := hnone created rfl
    obtain rfl : after = before := hsame
    subst hempty
    refine ⟨⟨[], rfl, rfl⟩, ?_, rfl, .nil, fun _ hid => absurd hid List.not_mem_nil⟩
    rw [List.zipWith_nil_left, List.append_nil]
  · rcases result with e | value
    · exact hreports.elim
    · obtain ⟨d, hd, rfl, hafter⟩ := hresult _ rfl
      obtain ⟨items, hcreate, rfl⟩ := Decision.eq_of_ofCreation hd
      obtain rfl : created = ids items := hreports
      obtain ⟨numbers, hlength, hids, hitems⟩ := createItems_eq hcreate
      obtain ⟨hnodup, hfresh⟩ := fresh_createItems hcreate
      have hactive : after.active = before.active ++ items := by rw [show after = _ from hafter]; rfl
      refine ⟨⟨numbers, hlength, hids⟩, ?_, by rw [show after = _ from hafter]; rfl, hnodup, ?_⟩
      · rw [hactive, ← hitems]
      · rintro id hid (hknown | hknown)
        · exact (hfresh id hid).2 hknown
        · exact (hfresh id hid).1 hknown

/-- No ID is given out twice.  At every moment of a run the active IDs are distinct, if they were at its
    start.  And an ingestion that is accepted puts one item for each draft after the ones that are
    there, under distinct IDs with the stem asked for, which no active or archived item has had at any
    moment of the run. -/
theorem ingested_fresh {c₀ c : Coordinator} {turns : List Turn} {start before : Contents}
    (hdistinct : (ids start.active).Nodup) (hturns : Serves settings c₀ turns c)
    (hstore : Script.World.Takes Contents.Answers start (talk turns) before) :
    (∀ now command log rest after, (submit settings now command c).Leads log rest →
      Script.World.Takes Contents.Answers before log after → (ids after.active).Nodup) ∧
    ∀ now drafts log (created : List String) c' after,
      (submit settings now (.ingest drafts) c).Leads log (.done (.ok created, c')) →
      Script.World.Takes Contents.Answers before log after →
      (∃ numbers : List Nat, numbers.length = drafts.length ∧
        created = numbers.map (IdSource.idOf settings.stem)) ∧
      after.active
        = before.active ++ List.zipWith (fun draft id => draft.item id now) drafts created ∧
      after.archive = before.archive ∧
      created.Nodup ∧
      ∀ first second moment, talk turns = first ++ second →
        Script.World.Takes Contents.Answers start first moment →
        Script.World.Takes Contents.Answers moment second before →
        ∀ id ∈ created, ¬ moment.Knows id := by
  have hbefore : (ids before.active).Nodup := by
    refine List.nodup_iff_count.mpr fun id => ?_
    exact count_ids_of_serves hturns hstore (List.nodup_iff_count.mp hdistinct id)
  refine ⟨fun now command log rest after hcommand hlog => nodup_of_leads hcommand hlog hbefore, ?_⟩
  intro now drafts log created c' after hcommand hlog
  obtain ⟨hids, hactive, harchive, hnodup, hfresh⟩ := ingested_of_leads hcommand hlog
  refine ⟨hids, hactive, harchive, hnodup, ?_⟩
  intro first second moment hmoment hfirst hsecond id hid hknown
  exact hfresh id hid (knows_of_moment hturns hmoment hfirst hsecond hknown)

/-- The done item is archived. -/
def archivedFirst : (Except CommandError Unit × Coordinator) × Rehearsal :=
  rehearsed {} ⟨1, 0⟩ (.archive "WRK-1") {} .sample

/-- Two drafts. -/
def draftsThen : List Draft := [{ title := "Warm the cache" }, { title := "Measure the cache" }]

/-- The drafts are ingested after that. -/
def ingestedThen : (Except CommandError (List String) × Coordinator) × Rehearsal :=
  rehearsed {} ⟨2, 0⟩ (.ingest draftsThen) archivedFirst.1.2 archivedFirst.2

/-- An item is archived, and the IDs that are given out then count on from its own. -/
theorem ingested_fresh_rehearsed :
    (ids Rehearsal.sample.contents.active).Nodup ∧ Rehearsal.sample.contents.Knows "WRK-1" ∧
    archivedFirst.2.contents.active = [] ∧
    ingestedThen.1.1.toOption = some ["WRK-2", "WRK-3"] ∧
    (ids ingestedThen.2.contents.active).Nodup ∧
    ingestedThen.2.contents.active
      = List.zipWith (fun draft id => draft.item id ⟨2, 0⟩) draftsThen ["WRK-2", "WRK-3"] ∧
    "WRK-1" ∉ ["WRK-2", "WRK-3"] := by
  have hdistinct : (ids Rehearsal.sample.contents.active).Nodup := by decide
  have hknown : Rehearsal.sample.contents.Knows "WRK-1" := Or.inl (by decide)
  have hnone : archivedFirst.2.contents.active = [] := by decide +kernel
  have hreply : ingestedThen.1.1.toOption = some ["WRK-2", "WRK-3"] := by decide +kernel
  have hstore : Script.World.Takes Contents.Answers Rehearsal.sample.contents
      (talk [Turn.rehearsed {} ⟨1, 0⟩ (.archive "WRK-1") {} .sample]) archivedFirst.2.contents := by
    rw [talk_cons, talk_nil, List.append_nil]
    exact takes_rehearsed ..
  obtain ⟨hleads, hingested⟩ := ingested_fresh hdistinct (serves_rehearsed ..) hstore
  have hlog : Script.World.Takes Contents.Answers archivedFirst.2.contents
      (rehearsedLog {} ⟨2, 0⟩ (.ingest draftsThen) archivedFirst.1.2 archivedFirst.2)
      ingestedThen.2.contents :=
    takes_rehearsed ..
  have hcommand := leads_rehearsed_ok {} ⟨2, 0⟩ (.ingest draftsThen) _ _ hreply
  obtain ⟨-, hactive, -, -, hfresh⟩ := hingested _ _ _ _ _ _ hcommand hlog
  rw [hnone, List.nil_append] at hactive
  refine ⟨hdistinct, hknown, hnone, hreply, hleads _ _ _ _ _ hcommand hlog, hactive, ?_⟩
  -- at the start of the run the archived item was there
  intro hid
  exact hfresh [] _ _ rfl (.stay _) hstore _ hid hknown

end Coordinator

end Backlog
