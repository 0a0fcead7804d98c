/-
  IDs that were not taken before.

  Program: a source of IDs goes through numbers until it finds one that is not taken, and takes it.
  New items get their IDs from a source beside all the IDs in the store.

  Specification: new items have IDs of their own, distinct from each other and from every ID in the
  store (`fresh_createItems`).  They are one for each draft, in order, under the stem asked for
  (`createItems_eq`).

  Which numbers the source goes through does not matter here.
-/
import Backlog.Proofs.ActiveSet

namespace Backlog

namespace IdSource

/-- An ID that a source gives out was not taken, and is taken from then on. -/
theorem fresh_probe {attempts : Nat} {source after : IdSource} {id : String}
    (h : source.probe attempts = (.ok id, after)) :
    id ∉ source.known ∧ after.known = id :: source.known := by
  induction attempts generalizing source with
  | zero => cases h
  | succ attempts ih =>
    simp only [probe] at h
    split at h
    · cases h
    · split at h
      · have hlater := ih h
        exact hlater
      · next hfree =>
        cases h
        exact ⟨by simpa using hfree, rfl⟩

/-- It is the ID with some number, under the stem of the source, which the source keeps. -/
theorem idOf_probe {attempts : Nat} {source after : IdSource} {id : String}
    (h : source.probe attempts = (.ok id, after)) :
    (∃ number, id = idOf source.stem number) ∧ after.stem = source.stem := by
  induction attempts generalizing source with
  | zero => cases h
  | succ attempts ih =>
    simp only [probe] at h
    split at h
    · cases h
    · split at h
      · have hlater := ih h
        exact hlater
      · cases h
        exact ⟨⟨source.next, rfl⟩, rfl⟩

/-- A source that gives out no ID has run out of numbers to try. -/
theorem error_probe {attempts : Nat} {source after : IdSource} {e : StoreError}
    (h : source.probe attempts = (.error e, after)) : ∃ stem tried, e = .idsExhausted stem tried := by
  induction attempts generalizing source with
  | zero =>
    cases h
    exact ⟨_, _, rfl⟩
  | succ attempts ih =>
    simp only [probe] at h
    split at h
    · cases h
      exact ⟨_, _, rfl⟩
    · split at h
      · have hlater := ih h
        exact hlater
      · cases h

end IdSource

variable {now : Stamp} {drafts : List Draft} {created : List Item}

theorem Draft.id_item (draft : Draft) (id : String) (now : Stamp) : (draft.item id now).id = id :=
  congrArg Prod.fst (draft.identity_item id now)

/-- Items that are made one after the other have distinct IDs that were not taken. -/
theorem fresh_draftItems {source : IdSource} (h : draftItems now source drafts = .ok created) :
    (ids created).Nodup ∧ ∀ id ∈ ids created, id ∉ source.known := by
  induction drafts generalizing source created with
  | nil =>
    cases h
    exact ⟨.nil, fun _ hid => absurd hid List.not_mem_nil⟩
  | cons draft drafts ih =>
    simp only [draftItems] at h
    split at h
    · cases h
    · next id after hfresh =>
      obtain ⟨hfree, hknown⟩ := IdSource.fresh_probe hfresh
      cases hrest : draftItems now after drafts with
      | error e =>
        rw [hrest] at h
        cases h
      | ok others =>
        rw [hrest] at h
        cases h
        obtain ⟨hnodup, hothers⟩ := ih hrest
        rw [hknown] at hothers
        rw [ids_cons, Draft.id_item]
        refine ⟨List.nodup_cons.mpr ⟨fun hid => hothers id hid List.mem_cons_self, hnodup⟩, ?_⟩
        intro x hx
        rcases List.mem_cons.mp hx with rfl | hx
        · exact hfree
        · exact fun htaken => hothers x hx (List.mem_cons_of_mem id htaken)

/-- They are the items that the drafts describe, in order, under the stem of the source. -/
theorem draftItems_eq {source : IdSource} (h : draftItems now source drafts = .ok created) :
    ∃ numbers : List Nat, numbers.length = drafts.length ∧
      ids created = numbers.map (IdSource.idOf source.stem) ∧
      created = List.zipWith (fun draft id => draft.item id now) drafts (ids created) := by
  induction drafts generalizing source created with
  | nil =>
    cases h
    exact ⟨[], rfl, rfl, rfl⟩
  | cons draft drafts ih =>
    simp only [draftItems] at h
    split at h
    · cases h
    · next id after hfresh =>
      obtain ⟨⟨number, rfl⟩, hstem⟩ := IdSource.idOf_probe hfresh
      cases hrest : draftItems now after drafts with
      | error e =>
        rw [hrest] at h
        cases h
      | ok others =>
        rw [hrest] at h
        cases h
        obtain ⟨numbers, hlength, hids, hitems⟩ := ih hrest
        rw [hstem] at hids
        refine ⟨number :: numbers, congrArg Nat.succ hlength, ?_, ?_⟩
        · rw [ids_cons, Draft.id_item, hids, List.map_cons]
        · rw [ids_cons, Draft.id_item, List.zipWith_cons_cons, ← hitems]

theorem error_draftItems {source : IdSource} {e : StoreError}
    (h : draftItems now source drafts = .error e) : ∃ stem tried, e = .idsExhausted stem tried := by
  induction drafts generalizing source with
  | nil => cases h
  | cons draft drafts ih =>
    simp only [draftItems] at h
    split at h
    · next hfailed =>
      cases h
      exact IdSource.error_probe hfailed
    · next id after hfresh =>
      cases hrest : draftItems now after drafts with
      | error e' =>
        rw [hrest] at h
        cases h
        exact ih hrest
      | ok others =>
        rw [hrest] at h
        cases h

section

variable {stem : String} {active : List Item} {archived : List String}

/-- New items cannot be created for want of a stem or of numbers. -/
theorem error_createItems {e : CommandError}
    (h : createItems now stem active archived drafts = .error e) :
    (∃ stem, e = .ofStore (.invalidId stem)) ∨
      ∃ stem tried, e = .ofStore (.idsExhausted stem tried) := by
  simp only [createItems] at h
  split at h
  · next e' hmake =>
    cases h
    rw [IdSource.make] at hmake
    split at hmake
    · cases hmake
    · cases hmake
      exact .inl ⟨_, rfl⟩
  · next source hmake =>
    cases hdrafts : draftItems now source drafts with
    | error e' =>
      rw [hdrafts] at h
      cases h
      obtain ⟨stem, tried, rfl⟩ := error_draftItems hdrafts
      exact .inr ⟨stem, tried, rfl⟩
    | ok items =>
      rw [hdrafts] at h
      cases h

/-- New items come from a source under their stem, beside all the IDs in the store. -/
theorem draftItems_of_createItems (h : createItems now stem active archived drafts = .ok created) :
    ∃ source : IdSource, source.stem = stem ∧ source.known = archived ++ ids active ∧
      draftItems now source drafts = .ok created := by
  simp only [createItems] at h
  split at h
  · cases h
  · next source hmake =>
    have hsource : source.stem = stem ∧ source.known = archived ++ ids active := by
      rw [IdSource.make] at hmake
      split at hmake
      · cases hmake
        exact ⟨rfl, rfl⟩
      · cases hmake
    cases hdrafts : draftItems now source drafts with
    | error e =>
      rw [hdrafts] at h
      cases h
    | ok items =>
      rw [hdrafts] at h
      cases h
      exact ⟨source, hsource.1, hsource.2, hdrafts⟩

/-- New items have distinct IDs that no active or archived item has. -/
theorem fresh_createItems (h : createItems now stem active archived drafts = .ok created) :
    (ids created).Nodup ∧ ∀ id ∈ ids created, id ∉ archived ∧ id ∉ ids active := by
  obtain ⟨source, -, hknown, hdrafts⟩ := draftItems_of_createItems h
  obtain ⟨hnodup, hfresh⟩ := fresh_draftItems hdrafts
  rw [hknown] at hfresh
  refine ⟨hnodup, fun id hid => ?_⟩
  have hneither := hfresh id hid
  rw [List.mem_append, not_or] at hneither
  exact hneither

/-- There is one for each draft, in order. -/
theorem createItems_eq (h : createItems now stem active archived drafts = .ok created) :
    ∃ numbers : List Nat, numbers.length = drafts.length ∧
      ids created = numbers.map (IdSource.idOf stem) ∧
      created = List.zipWith (fun draft id => draft.item id now) drafts (ids created) := by
  obtain ⟨source, rfl, -, hdrafts⟩ := draftItems_of_createItems h
  exact draftItems_eq hdrafts

end

end Backlog
