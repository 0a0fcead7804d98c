/-
  Which numbers fresh IDs get.

  Program: a source of IDs starts one above the highest number that it reads from the known IDs with
  its stem.  It goes on by one for each ID that it gives out, and passes over numbers whose ID is taken.

  Specification: the numbers are one above the highest known one, then two, and so on without a gap; the
  last is two below 2^64, and from there on no ID is given out any more (`counts_on`).

  Reading is generous and writing is not: `WRK-017` and `WRK-+17` count as 17, while the ID of 17 is
  `WRK-17` alone.  The crux is that the ID of a number is read as that number (`number?_idOf`).  So no
  number from the next one on is taken (`Ahead`), and each number that is tried is given out.
-/
import Backlog.Proofs.Store.FreshIds
import Backlog.Proofs.Text.Digits

namespace Backlog

namespace IdSource

variable {stem : String} {known : List String} {source : IdSource} {h : Nat}

/-! ## Numbers of known IDs -/

/-- A known ID is the stem, a dash and a text that is read as the number. -/
def IsKnown (stem : String) (known : List String) (n : Nat) : Prop :=
  ∃ text, stem ++ "-" ++ text ∈ known ∧ Text.readUnsigned? text = some n

/-- The highest number of the known IDs with a stem; zero without any. -/
structure IsHighest (stem : String) (known : List String) (h : Nat) : Prop where
  bound : ∀ n, IsKnown stem known n → n ≤ h
  attained : IsKnown stem known h ∨ h = 0

theorem number?_eq_some_iff {id : String} {n : Nat} :
    number? stem id = some n ↔
      ∃ text, id = stem ++ "-" ++ text ∧ Text.readUnsigned? text = some n := by
  simp only [number?]
  constructor
  · intro hnumber
    split at hnumber
    · next hlead =>
      obtain ⟨rest, hrest⟩ := List.isPrefixOf_iff_prefix.mp hlead
      rw [← hrest, List.drop_left] at hnumber
      refine ⟨String.ofList rest, ?_, hnumber⟩
      rw [← String.toList_inj, String.toList_append, String.toList_ofList]
      exact hrest.symm
    · cases hnumber
  · rintro ⟨text, rfl, hread⟩
    have hlead : (stem ++ "-").toList.isPrefixOf (stem ++ "-" ++ text).toList = true := by
      rw [String.toList_append (s := stem ++ "-")]
      exact List.isPrefixOf_iff_prefix.mpr (List.prefix_append _ _)
    rw [if_pos hlead, String.toList_append (s := stem ++ "-"), List.drop_left, String.ofList_toList]
    exact hread

theorem mem_numbers_iff {n : Nat} : n ∈ known.filterMap (number? stem) ↔ IsKnown stem known n := by
  rw [List.mem_filterMap]
  constructor
  · rintro ⟨id, hid, hnumber⟩
    obtain ⟨text, rfl, hread⟩ := number?_eq_some_iff.mp hnumber
    exact ⟨text, hid, hread⟩
  · rintro ⟨text, hid, hread⟩
    exact ⟨_, hid, number?_eq_some_iff.mpr ⟨text, rfl, hread⟩⟩

/-- The highest number is what it is called. -/
theorem isHighest_highest (stem : String) (known : List String) :
    IsHighest stem known (highest stem known) := by
  have hmax : (0 :: known.filterMap (number? stem)).max? = some (highest stem known) := List.max?_cons'
  obtain ⟨hmem, hbound⟩ := List.max?_eq_some_iff.mp hmax
  constructor
  case bound =>
    intro n hn
    exact hbound n (List.mem_cons_of_mem _ (mem_numbers_iff.mpr hn))
  case attained =>
    rcases List.mem_cons.mp hmem with hzero | hmem
    · exact .inr hzero
    · exact .inl (mem_numbers_iff.mp hmem)

theorem IsHighest.eq_highest (hhighest : IsHighest stem known h) : h = highest stem known := by
  have hother := isHighest_highest stem known
  apply Nat.le_antisymm
  · rcases hhighest.attained with hknown | rfl
    · exact hother.bound h hknown
    · exact Nat.zero_le _
  · rcases hother.attained with hknown | hzero
    · exact hhighest.bound _ hknown
    · rw [hzero]
      exact Nat.zero_le h

/-- The ID of a number is read as that number. -/
theorem number?_idOf {n : Nat} (hn : n < Nat.pow 2 64) : number? stem (idOf stem n) = some n :=
  number?_eq_some_iff.mpr ⟨toString n, rfl, Text.readUnsigned?_toString hn⟩

theorem eq_of_idOf {m n : Nat} (hm : m < Nat.pow 2 64) (hn : n < Nat.pow 2 64)
    (heq : idOf stem m = idOf stem n) : m = n := by
  have hread : number? stem (idOf stem m) = some m := number?_idOf hm
  rw [heq, number?_idOf hn] at hread
  exact (Option.some.inj hread).symm

/-! ## One call -/

/-- No number from the next one on is taken. -/
structure Ahead (source : IdSource) : Prop where
  le : source.next ≤ maxNumber
  free : ∀ n, source.next ≤ n → n < maxNumber → idOf source.stem n ∉ source.known

theorem maxNumber_eq : maxNumber = Nat.pow 2 64 - 1 := rfl

/-- The source after the ID of its next number was given out. -/
def taken (source : IdSource) : IdSource :=
  { source with
    known := idOf source.stem source.next :: source.known
    next := source.next + 1 }

/-- The first attempt succeeds, however many there may be. -/
theorem probe_of_lt (hahead : source.Ahead) (hlt : source.next < maxNumber) (attempts : Nat) :
    source.probe (attempts + 1) = (.ok (idOf source.stem source.next), source.taken) := by
  have hfree : ¬ source.known.contains (idOf source.stem source.next) = true := by
    intro hmem
    exact hahead.free source.next (Nat.le_refl _) hlt (List.contains_iff_mem.mp hmem)
  rw [probe, if_neg (Nat.not_le.mpr hlt)]
  show (if _ then _ else _) = _
  rw [if_neg hfree]
  rfl

theorem fresh_of_lt (hahead : source.Ahead) (hlt : source.next < maxNumber) :
    source.fresh = (.ok (idOf source.stem source.next), source.taken) :=
  probe_of_lt hahead hlt 999

theorem fresh_of_le (hle : maxNumber ≤ source.next) :
    source.fresh = (.error (.idsExhausted source.stem maxAttempts), source) := by
  show source.probe (999 + 1) = _
  rw [probe, if_pos hle]

theorem ahead_taken (hahead : source.Ahead) (hlt : source.next < maxNumber) : source.taken.Ahead := by
  constructor
  case le => exact hlt
  case free =>
    intro n hn hmax hmem
    have hn : source.next + 1 ≤ n := hn
    rcases List.mem_cons.mp hmem with heq | hmem
    · have hsame : n = source.next := by
        rw [maxNumber_eq] at hmax hlt
        exact eq_of_idOf (by omega) (by omega) heq
      omega
    · exact hahead.free n (by omega) hmax hmem

/-! ## One call after the other -/

/-- The source after a number of calls for a fresh ID. -/
def after (source : IdSource) : Nat → IdSource
  | 0 => source
  | k + 1 => (source.after k).fresh.2

/-- What a call for a fresh ID answers after a number of others. -/
def answer (source : IdSource) (k : Nat) : Except StoreError String := (source.after k).fresh.1

/-- Each call counts on by one, up to the greatest number. -/
theorem after_ahead (hahead : source.Ahead) (k : Nat) :
    (source.after k).Ahead ∧ (source.after k).stem = source.stem ∧
      (source.after k).next = min (source.next + k) maxNumber := by
  induction k with
  | zero => exact ⟨hahead, rfl, (Nat.min_eq_left hahead.le).symm⟩
  | succ k ih =>
    obtain ⟨hahead', hstem, hnext⟩ := ih
    show (source.after k).fresh.2.Ahead ∧ (source.after k).fresh.2.stem = _ ∧
      (source.after k).fresh.2.next = _
    rcases Nat.lt_or_ge (source.after k).next maxNumber with hlt | hge
    · rw [fresh_of_lt hahead' hlt]
      refine ⟨ahead_taken hahead' hlt, hstem, ?_⟩
      show (source.after k).next + 1 = _
      omega
    · rw [fresh_of_le hge]
      refine ⟨hahead', hstem, ?_⟩
      show (source.after k).next = _
      omega

theorem answer_eq (hahead : source.Ahead) (k : Nat) :
    source.answer k = if source.next + k < maxNumber then .ok (idOf source.stem (source.next + k))
      else .error (.idsExhausted source.stem maxAttempts) := by
  obtain ⟨hahead', hstem, hnext⟩ := after_ahead hahead k
  rw [answer]
  split
  · next hlt =>
    have hsame : (source.after k).next = source.next + k := by omega
    rw [fresh_of_lt hahead' (by omega), hstem, hsame]
  · next hge =>
    rw [fresh_of_le (by omega), hstem]

/-! ## Counting on -/

theorem isStem_iff : isStem stem = true ↔ stem ≠ "" ∧ ∀ c ∈ stem.toList, c.isAlphanum = true := by
  simp [isStem]

/-- The source of IDs with a stem that starts one above a number, or at the greatest one. -/
def above (stem : String) (known : List String) (h : Nat) : IdSource :=
  ⟨stem, known, min (h + 1) maxNumber⟩

theorem make_eq_above (hstem : isStem stem = true) (hhighest : IsHighest stem known h) :
    make stem known = .ok (above stem known h) := by
  rw [make, if_pos hstem, above, hhighest.eq_highest]

/-- No number above the highest known one is taken. -/
theorem ahead_above (hhighest : IsHighest stem known h) : (above stem known h).Ahead := by
  constructor
  case le => exact Nat.min_le_right _ _
  case free =>
    intro n hn hmax hmem
    have hn : min (h + 1) maxNumber ≤ n := hn
    rw [maxNumber_eq] at hn hmax
    have hknown : IsKnown stem known n :=
      ⟨toString n, hmem, Text.readUnsigned?_toString (by omega)⟩
    have hle : n ≤ h := hhighest.bound n hknown
    omega

theorem answer_above (hhighest : IsHighest stem known h) (k : Nat) :
    (above stem known h).answer k =
      if h + (k + 1) < Nat.pow 2 64 - 1 then .ok (idOf stem (h + (k + 1)))
      else .error (.idsExhausted stem maxAttempts) := by
  rw [answer_eq (ahead_above hhighest) k]
  show (if min (h + 1) maxNumber + k < maxNumber then
      Except.ok (idOf stem (min (h + 1) maxNumber + k)) else _) = _
  rw [maxNumber_eq]
  split
  · next hlt =>
    have hnumber : min (h + 1) (Nat.pow 2 64 - 1) + k = h + (k + 1) := by omega
    rw [hnumber, if_pos (by omega)]
  · next hge =>
    rw [if_neg (by omega)]
    rfl

/-- Beside any known IDs, the IDs given out carry the numbers above the highest known one, each in its
    turn, as long as they stay below 2^64 - 1; from there on none is given out.  None of them was known
    or given out before, and no number is tried in vain. -/
theorem counts_on (hne : stem ≠ "") (hstem : ∀ c ∈ stem.toList, c.isAlphanum = true)
    (hhighest : IsHighest stem known h) :
    ∃ source, make stem known = .ok source ∧
      (∀ k, source.answer k =
        if h + (k + 1) < Nat.pow 2 64 - 1 then .ok (stem ++ "-" ++ toString (h + (k + 1)))
        else .error (.idsExhausted stem maxAttempts)) ∧
      (∀ j k e, j ≤ k → source.answer j = .error e → source.answer k = .error e) ∧
      (∀ k id, source.answer k = .ok id → id ∉ known ∧ ∀ j < k, source.answer j ≠ .ok id) ∧
      ∀ k, h + (k + 1) < Nat.pow 2 64 - 1 → (source.after k).probe 1 = (source.after k).fresh := by
  have hahead := ahead_above hhighest
  have hanswer := answer_above hhighest
  refine ⟨above stem known h, make_eq_above (isStem_iff.mpr ⟨hne, hstem⟩) hhighest, hanswer,
    ?stays, ?fresh, ?first⟩
  case stays =>
    intro j k e hjk herror
    rw [hanswer] at herror ⊢
    split at herror
    · cases herror
    · next hge => rw [if_neg (by omega), herror]
  case fresh =>
    intro k id hok
    rw [hanswer] at hok
    split at hok
    · next hlt =>
      cases hok
      constructor
      · refine hahead.free (h + (k + 1)) ?_ hlt
        show min (h + 1) maxNumber ≤ _
        omega
      · -- an earlier ID has another number
        intro j hj hsame
        rw [hanswer, if_pos (by omega)] at hsame
        have hnumber : h + (j + 1) = h + (k + 1) :=
          eq_of_idOf (by omega) (by omega) (Except.ok.inj hsame)
        omega
    · cases hok
  case first =>
    intro k hlt
    obtain ⟨hahead', -, hnext⟩ := after_ahead hahead k
    have hnext : ((above stem known h).after k).next = min (min (h + 1) maxNumber + k) maxNumber := hnext
    have hlt' : ((above stem known h).after k).next < maxNumber := by
      rw [hnext, maxNumber_eq]
      omega
    rw [probe_of_lt hahead' hlt' 0, fresh_of_lt hahead' hlt']

/-- Three numbers below the last one, with IDs of other stems and with numbers out of range. -/
def fullSample : List String :=
  ["WRK-18446744073709551612", "WRK-+0017", "WRK-18446744073709551617", "OTHER-18446744073709551615"]

/-- Two more IDs can be had beside these, and no more. -/
theorem counts_on_full :
    ("WRK" ≠ "" ∧ (∀ c ∈ "WRK".toList, c.isAlphanum = true) ∧
      IsHighest "WRK" fullSample 18446744073709551612) ∧
    ∃ source, make "WRK" fullSample = .ok source ∧
      source.answer 0 = .ok "WRK-18446744073709551613" ∧
      source.answer 1 = .ok "WRK-18446744073709551614" ∧
      ∀ k, 2 ≤ k → source.answer k = .error (.idsExhausted "WRK" 1000) := by
  have hne : "WRK" ≠ "" := by decide
  have hstem : ∀ c ∈ "WRK".toList, c.isAlphanum = true :=
    List.all_eq_true.mp (by decide : "WRK".toList.all Char.isAlphanum = true)
  have hhighest : IsHighest "WRK" fullSample 18446744073709551612 := by
    have hvalue : highest "WRK" fullSample = 18446744073709551612 := by decide +kernel
    exact hvalue ▸ isHighest_highest "WRK" fullSample
  obtain ⟨source, hmake, hanswer, hstays, -, -⟩ := counts_on hne hstem hhighest
  refine ⟨⟨hne, hstem, hhighest⟩, source, hmake, ?_, ?_, ?_⟩
  · rw [hanswer, if_pos (by decide)]
    rfl
  · rw [hanswer, if_pos (by decide)]
    rfl
  · intro k hk
    refine hstays 2 k _ hk ?_
    rw [hanswer, if_neg (by decide)]
    rfl

end IdSource

end Backlog
