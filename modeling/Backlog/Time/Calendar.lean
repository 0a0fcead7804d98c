/-
  Days and calendar dates.

  Days are counted from 1970-01-01 in the proleptic Gregorian calendar.  `Date.toDays` and
  `Date.ofDays` convert by eras of 400 years, years counted from March so that the leap day comes
  last.  A year, month and day make a date when converting there and back gives them again; the
  crux is `toDays_ofDays`, that every day has a date.
-/

namespace Backlog.Time

/-- A year, a month from 1 and a day from 1. -/
structure Date where
  year : Int
  month : Nat
  day : Nat
deriving DecidableEq, Repr

namespace Date

/-- The days from 1970-01-01 to the first of March of a year. -/
def firstOfMarch (year : Int) : Int :=
  let era := year / 400
  let yearOfEra := year % 400
  era * 146097 + (yearOfEra * 365 + yearOfEra / 4 - yearOfEra / 100) - 719468

/-- The days from 1970-01-01 to a date. -/
def toDays (date : Date) : Int :=
  let year := if date.month ≤ 2 then date.year - 1 else date.year
  let march := (date.month + 9) % 12
  firstOfMarch year + ((153 * march + 2) / 5 + date.day - 1)

/-- The date some days after the first of March of a year, in the year from then. -/
def afterMarch (year : Int) (days : Nat) : Date :=
  let march := (5 * days + 2) / 153
  let day := days - (153 * march + 2) / 5 + 1
  if march < 10 then ⟨year, march + 3, day⟩ else ⟨year + 1, march - 9, day⟩

/-- The year from March that a day of an era lies in, counted within the era: a century, a span of
    four years and a year, of which the last of four may be a day longer. -/
def yearOfEra (dayOfEra : Int) : Int :=
  let century := min (dayOfEra / 36524) 3
  let dayOfCentury := dayOfEra - century * 36524
  let year := min (dayOfCentury % 1461 / 365) 3
  century * 100 + dayOfCentury / 1461 * 4 + year

/-- The date a number of days after 1970-01-01. -/
def ofDays (days : Int) : Date :=
  let year := (days + 719468) / 146097 * 400 + yearOfEra ((days + 719468) % 146097)
  afterMarch year (days - firstOfMarch year).toNat

/-- Whether the calendar has such a day. -/
def isValid (date : Date) : Bool := ofDays date.toDays == date

/-! ## Every day has a date -/

theorem toDays_afterMarch (year : Int) {days : Nat} (h : days ≤ 365) :
    (afterMarch year days).toDays = firstOfMarch year + days := by
  have hm : (5 * days + 2) / 153 ≤ 11 := by omega
  have hd : (153 * ((5 * days + 2) / 153) + 2) / 5 ≤ days := by omega
  rw [afterMarch]
  by_cases h10 : (5 * days + 2) / 153 < 10
  · have h2 : ¬ (5 * days + 2) / 153 + 3 ≤ 2 := by omega
    have h9 : ((5 * days + 2) / 153 + 3 + 9) % 12 = (5 * days + 2) / 153 := by omega
    simp only [h10, if_true, toDays, h2, if_false, h9]
    omega
  · have h2 : (5 * days + 2) / 153 - 9 ≤ 2 := by omega
    have h9 : ((5 * days + 2) / 153 - 9 + 9) % 12 = (5 * days + 2) / 153 := by omega
    simp only [h10, if_false, toDays, h2, if_true, h9, Int.add_sub_cancel]
    omega

/-- The year found for a day of an era is the one whose days hold it. -/
theorem yearOfEra_bounds {d : Int} (h0 : 0 ≤ d) (h1 : d ≤ 146096) :
    0 ≤ yearOfEra d ∧ yearOfEra d ≤ 399
      ∧ yearOfEra d * 365 + yearOfEra d / 4 - yearOfEra d / 100 ≤ d
      ∧ d ≤ yearOfEra d * 365 + yearOfEra d / 4 - yearOfEra d / 100 + 365 := by
  have hc : 0 ≤ min (d / 36524) 3 ∧ min (d / 36524) 3 ≤ 3
      ∧ 0 ≤ d - min (d / 36524) 3 * 36524 ∧ d - min (d / 36524) 3 * 36524 ≤ 36524 := by omega
  simp only [yearOfEra]
  generalize min (d / 36524) 3 = c at hc ⊢
  have hr : d = c * 36524 + (d - c * 36524) := by omega
  generalize d - c * 36524 = r at hc hr ⊢
  have hq : 0 ≤ r / 1461 ∧ r / 1461 ≤ 24 ∧ r = r / 1461 * 1461 + r % 1461
      ∧ 0 ≤ r % 1461 ∧ r % 1461 ≤ 1460 := by omega
  generalize r / 1461 = q at hq ⊢
  generalize r % 1461 = s at hq ⊢
  have hs : 0 ≤ min (s / 365) 3 ∧ min (s / 365) 3 ≤ 3 ∧ min (s / 365) 3 * 365 ≤ s
      ∧ s ≤ min (s / 365) 3 * 365 + 365 := by omega
  generalize min (s / 365) 3 = k at hs ⊢
  have h4 : (c * 100 + q * 4 + k) / 4 = c * 25 + q := by omega
  have h100 : (c * 100 + q * 4 + k) / 100 = c := by omega
  rw [h4, h100]
  omega

/-- Converting a day to its date and back gives the day. -/
theorem toDays_ofDays (days : Int) : (ofDays days).toDays = days := by
  have hb := yearOfEra_bounds (d := (days + 719468) % 146097) (by omega) (by omega)
  rw [ofDays]
  generalize yearOfEra ((days + 719468) % 146097) = y at hb ⊢
  have hf : firstOfMarch ((days + 719468) / 146097 * 400 + y)
      = (days + 719468) / 146097 * 146097 + (y * 365 + y / 4 - y / 100) - 719468 := by
    have h1 : ((days + 719468) / 146097 * 400 + y) / 400 = (days + 719468) / 146097 := by omega
    have h2 : ((days + 719468) / 146097 * 400 + y) % 400 = y := by omega
    rw [firstOfMarch, h1, h2]
  rw [toDays_afterMarch _ (by rw [hf]; omega), hf]
  omega

/-- Every day's date is one the calendar has. -/
theorem isValid_ofDays (days : Int) : (ofDays days).isValid = true := by
  simp [isValid, toDays_ofDays]

/-! ## Examples -/

example : (ofDays 0, ofDays 18322) = (⟨1970, 1, 1⟩, ⟨2020, 3, 1⟩) := by decide
example : [isValid ⟨2024, 2, 29⟩, isValid ⟨2023, 2, 29⟩, isValid ⟨2000, 2, 29⟩, isValid ⟨2020, 0, 1⟩]
    = [true, false, true, false] := by decide

end Date

end Backlog.Time
