/-
  Time stamps written and read back.

  Program: a stamp is written as its date and its time of day, each part in a fixed width; the reader
  takes the parts off the front and counts the seconds.

  Specification: what is written of a moment in a year of four digits is read as that moment
  (`read?_render`), down to the nanosecond, leap seconds included.

  The crux is that a number that fills its width is read up to its last digit (`readNumber?_zeroPadded`),
  so each part ends where the next separator stands, and that every day has a date.
-/
import Backlog.Proofs.Text.Digits
import Backlog.Time.Stamp

namespace Backlog

/-! ## Dates -/

namespace Time.Date

theorem afterMarch_bounds (year : Int) {days : Nat} (h : days ≤ 365) :
    (afterMarch year days).month ≤ 12 ∧ (afterMarch year days).day ≤ 31 := by
  have hmarch : (5 * days + 2) / 153 ≤ 11 := by omega
  simp only [afterMarch]
  split
  · constructor
    · show (5 * days + 2) / 153 + 3 ≤ 12
      omega
    · show days - (153 * ((5 * days + 2) / 153) + 2) / 5 + 1 ≤ 31
      omega
  · constructor
    · show (5 * days + 2) / 153 - 9 ≤ 12
      omega
    · show days - (153 * ((5 * days + 2) / 153) + 2) / 5 + 1 ≤ 31
      omega

/-- Months and days have at most two digits. -/
theorem ofDays_bounds (days : Int) : (ofDays days).month ≤ 12 ∧ (ofDays days).day ≤ 31 := by
  obtain ⟨h0, h399, hlow, hhigh⟩ :=
    @yearOfEra_bounds ((days + 719468) % 146097) (by omega) (by omega)
  rw [ofDays]
  generalize yearOfEra ((days + 719468) % 146097) = y at h0 h399 hlow hhigh ⊢
  refine afterMarch_bounds _ ?_
  have hera : ((days + 719468) / 146097 * 400 + y) / 400 = (days + 719468) / 146097 := by omega
  have hyear : ((days + 719468) / 146097 * 400 + y) % 400 = y := by omega
  simp only [firstOfMarch, hera, hyear]
  omega

end Time.Date

namespace Stamp

open Text (isDigit natOfDigits zeroPadded isBlankChar trimStart)

/-! ## Parts of a stamp -/

variable {width n : Nat} {rest : List Char}

theorem not_blank_of_digit {c : Char} (h : isDigit c = true) : isBlankChar c = false := by
  obtain ⟨hlow, hhigh⟩ := Text.toNat_of_isDigit h
  simp only [isBlankChar, Bool.or_eq_false_iff, Bool.and_eq_false_iff, decide_eq_false_iff_not,
    beq_eq_false_iff_ne]
  omega

theorem exists_zeroPadded (hwidth : 0 < width) (hn : n < Nat.pow 10 width) :
    ∃ c cs, (zeroPadded width n).toList = c :: cs ∧ isDigit c = true := by
  have hne : (zeroPadded width n).toList ≠ [] := by
    intro hnil
    have hlength := Text.length_zeroPadded hwidth hn
    rw [hnil, List.length_nil] at hlength
    omega
  obtain ⟨c, cs, hcs⟩ := List.exists_cons_of_ne_nil hne
  exact ⟨c, cs, hcs, Text.isDigit_of_mem_zeroPadded (hcs ▸ List.mem_cons_self)⟩

/-- A number that fills its width is read up to its last digit. -/
theorem readNumber?_zeroPadded (hwidth : 0 < width) (hn : n < Nat.pow 10 width) :
    readNumber? width ((zeroPadded width n).toList ++ rest) = some (n, rest) := by
  obtain ⟨c, cs, hcs, hc⟩ := exists_zeroPadded hwidth hn
  have htrim : trimStart ((zeroPadded width n).toList ++ rest) = (zeroPadded width n).toList ++ rest := by
    rw [hcs]
    exact Text.trimStart_of_head (not_blank_of_digit hc)
  have hdigits : (zeroPadded width n).toList.takeWhile isDigit = (zeroPadded width n).toList := by
    have h := @List.takeWhile_append_of_pos _ isDigit (zeroPadded width n).toList []
      fun c => Text.isDigit_of_mem_zeroPadded
    rwa [List.append_nil, List.takeWhile_nil, List.append_nil] at h
  rw [readNumber?, htrim, List.take_left' (Text.length_zeroPadded hwidth hn), hdigits]
  refine bind_of (guard_of (by rw [hcs]; rfl)) ?_
  rw [Text.natOfDigits_zeroPadded, List.drop_left]
  rfl

theorem readYear?_zeroPadded (hn : n < Nat.pow 10 4) :
    readYear? ((zeroPadded 4 n).toList ++ rest) = some ((n : Int), rest) := by
  have hread : readNumber? 4 ((zeroPadded 4 n).toList ++ rest) = some (n, rest) :=
    readNumber?_zeroPadded (by decide) hn
  obtain ⟨c, cs, hcs, hc⟩ := @exists_zeroPadded 4 n (by decide) hn
  rw [hcs, List.cons_append] at hread ⊢
  rw [readYear?, Text.trimStart_of_head (not_blank_of_digit hc)]
  split
  · next heq =>
    rw [(List.cons.inj heq).1] at hc
    cases hc
  · next heq =>
    rw [(List.cons.inj heq).1] at hc
    cases hc
  · rw [hread]
    rfl

theorem readMark?_cons {mark : Char} (hmark : isBlankChar mark = false) :
    readMark? mark (mark :: rest) = some rest := by
  rw [readMark?, Text.trimStart_of_head hmark]
  exact if_pos rfl

theorem readFraction?_digits {ds : List Char} {c : Char} (hne : ds ≠ [])
    (hdigits : ∀ d ∈ ds, isDigit d = true) (hlength : ds.length ≤ 9) (hc : isDigit c = false) :
    readFraction? ('.' :: (ds ++ c :: rest))
      = some (natOfDigits ds * Nat.pow 10 (9 - ds.length), c :: rest) := by
  have htake : (ds ++ c :: rest).takeWhile isDigit = ds := by
    rw [List.takeWhile_append_of_pos hdigits, List.takeWhile_cons_of_neg (by simp [hc]),
      List.append_nil]
  rw [readFraction?, htake]
  refine bind_of (guard_of (by simpa using hne)) ?_
  rw [List.take_of_length_le hlength, List.drop_left]
  rfl

theorem readFraction?_zeroPadded {c : Char} (hwidth : 0 < width) (hn : n < Nat.pow 10 width)
    (hnine : width ≤ 9) (hc : isDigit c = false) :
    readFraction? ('.' :: ((zeroPadded width n).toList ++ c :: rest))
      = some (n * Nat.pow 10 (9 - width), c :: rest) := by
  obtain ⟨d, ds, hds, -⟩ := exists_zeroPadded hwidth hn
  have hne : (zeroPadded width n).toList ≠ [] := by
    rw [hds]
    exact List.cons_ne_nil d ds
  have hlength := Text.length_zeroPadded hwidth hn
  have hfits : (zeroPadded width n).toList.length ≤ 9 := by
    rw [hlength]
    exact hnine
  rw [readFraction?_digits hne (fun c => Text.isDigit_of_mem_zeroPadded) hfits hc,
    Text.natOfDigits_zeroPadded, hlength]

/-- As many digits are written as the fraction needs, and they are read for what they stand for. -/
theorem readFraction?_render (hn : n < 1000000000) :
    readFraction? ((renderFraction n).toList ++ 'Z' :: rest) = some (n, 'Z' :: rest) := by
  have hdigits : ∀ {width m : Nat}, 0 < width → m < Nat.pow 10 width → width ≤ 9 →
      m * Nat.pow 10 (9 - width) = n →
      readFraction? (("." ++ zeroPadded width m).toList ++ 'Z' :: rest) = some (n, 'Z' :: rest) := by
    intro width m hwidth hm hnine h
    rw [String.toList_append]
    show readFraction? ('.' :: ((zeroPadded width m).toList ++ 'Z' :: rest)) = _
    rw [readFraction?_zeroPadded hwidth hm hnine rfl, h]
  unfold renderFraction
  split
  · next hzero =>
    subst hzero
    rfl
  · split
    · next hmod =>
      exact hdigits (by decide) (show _ < 1000 by omega) (by decide)
        (Nat.div_mul_cancel (Nat.dvd_of_mod_eq_zero hmod))
    · split
      · next hmod =>
        exact hdigits (by decide) (show _ < 1000000 by omega) (by decide)
          (Nat.div_mul_cancel (Nat.dvd_of_mod_eq_zero hmod))
      · exact hdigits (by decide) (show _ < 1000000000 by omega) (by decide) (Nat.mul_one n)

/-! ## The stamp as a whole -/

/-- The characters of a moment, given the parts of its date and of its time of day. -/
def spelled (year month day hour minute second nanos : Nat) : List Char :=
  (zeroPadded 4 year).toList ++ '-' :: ((zeroPadded 2 month).toList ++ '-' ::
    ((zeroPadded 2 day).toList ++ 'T' :: ((zeroPadded 2 hour).toList ++ ':' ::
      ((zeroPadded 2 minute).toList ++ ':' :: ((zeroPadded 2 second).toList ++
        ((renderFraction nanos).toList ++ ['Z']))))))

theorem readOffset?_zulu : readOffset? ['Z'] = some (0, []) := rfl

theorem read?_spelled {year month day hour minute second nanos : Nat} {seconds : Int}
    (hyear : year ≤ 9999) (hmonth : month ≤ 12) (hday : day ≤ 31)
    (hdate : (⟨year, month, day⟩ : Time.Date).isValid = true)
    (hhour : hour < 24) (hminute : minute < 60) (hsecond : second ≤ 60) (hnanos : nanos < 1000000000)
    (hseconds : (⟨year, month, day⟩ : Time.Date).toDays * 86400 + hour * 3600 + minute * 60
      + (min second 59 : Nat) = seconds)
    (hrange : inRange (Time.Date.ofDays (seconds / 86400)).year = true) :
    read? (String.ofList (spelled year month day hour minute second nanos)) =
      some ⟨seconds, if second = 60 then nanos + 1000000000 else nanos⟩ := by
  have htwo : ∀ {n : Nat} {rest : List Char}, n ≤ 99 →
      readNumber? 2 ((zeroPadded 2 n).toList ++ rest) = some (n, rest) :=
    fun hn => readNumber?_zeroPadded (by decide) (show _ < 100 by omega)
  have hfour : ∀ {rest : List Char}, readYear? ((zeroPadded 4 year).toList ++ rest)
      = some ((year : Int), rest) :=
    readYear?_zeroPadded (show year < 10000 by omega)
  have hyears : inRange (year : Int) = true := by
    simp [inRange]
    omega
  have hdash : ∀ {rest : List Char}, readMark? '-' ('-' :: rest) = some rest := readMark?_cons rfl
  have hcolon : ∀ {rest : List Char}, readMark? ':' (':' :: rest) = some rest := readMark?_cons rfl
  rw [read?, spelled, String.toList_ofList]
  refine bind_of hfour (bind_of hdash (bind_of (htwo (by omega)) (bind_of hdash ?_)))
  refine bind_of (htwo (by omega)) (bind_of (guard_of (by simp [hyears, hdate])) (bind_of rfl ?_))
  refine bind_of (htwo (by omega)) (bind_of hcolon (bind_of (htwo (by omega)) (bind_of hcolon ?_)))
  refine bind_of (htwo (by omega)) (bind_of (guard_of (by simp [hhour, hminute, hsecond])) ?_)
  refine bind_of (readFraction?_render hnanos) (bind_of readOffset?_zulu ?_)
  refine bind_of (guard_of (by decide)) ?_
  rw [Int.sub_zero, hseconds]
  exact bind_of (guard_of hrange) rfl

/-- The year that a moment lies in. -/
def year (t : Stamp) : Int := (Time.Date.ofDays (t.seconds / 86400)).year

/-- Whether a clock can show the moment: a leap second ends a minute. -/
def isShown (t : Stamp) : Bool :=
  t.nanos < 1000000000 || (t.nanos < 2000000000 && t.seconds % 60 == 59)

theorem toList_render {t : Stamp} (hlow : 0 ≤ t.year) (hhigh : t.year ≤ 9999) {leap nanos : Nat}
    (h : (if t.nanos < 1000000000 then (0, t.nanos) else (1, t.nanos - 1000000000)) = (leap, nanos)) :
    t.render = String.ofList (spelled t.year.toNat (Time.Date.ofDays (t.seconds / 86400)).month
      (Time.Date.ofDays (t.seconds / 86400)).day ((t.seconds % 86400).toNat / 3600)
      ((t.seconds % 86400).toNat / 60 % 60) ((t.seconds % 86400).toNat % 60 + leap) nanos) := by
  have hyear : renderYear t.year = zeroPadded 4 t.year.toNat := if_pos ⟨hlow, hhigh⟩
  rw [← String.toList_inj, String.toList_ofList]
  simp only [render, h]
  rw [← year, hyear]
  simp [spelled]

/-- What is written of a moment in a year of four digits is read as that moment. -/
theorem read?_render {t : Stamp} (hshown : t.isShown = true) (hlow : 0 ≤ t.year)
    (hhigh : t.year ≤ 9999) : read? t.render = some t := by
  obtain ⟨hmonth, hday⟩ := Time.Date.ofDays_bounds (t.seconds / 86400)
  have hdate : (⟨(t.year.toNat : Int), (Time.Date.ofDays (t.seconds / 86400)).month,
      (Time.Date.ofDays (t.seconds / 86400)).day⟩ : Time.Date) = Time.Date.ofDays (t.seconds / 86400) := by
    rw [Int.toNat_of_nonneg hlow]
    rfl
  have hrange : inRange t.year = true := by
    simp [inRange]
    omega
  have hread : ∀ {leap nanos : Nat}, leap ≤ 1 → nanos < 1000000000 →
      (leap = 1 → t.seconds % 60 = 59) →
      (if t.nanos < 1000000000 then (0, t.nanos) else (1, t.nanos - 1000000000)) = (leap, nanos) →
      read? t.render = some ⟨t.seconds,
        if (t.seconds % 86400).toNat % 60 + leap = 60 then nanos + 1000000000 else nanos⟩ := by
    intro leap nanos hleap hnanos hends h
    rw [toList_render hlow hhigh h]
    refine read?_spelled (by omega) hmonth hday ?_ (by omega) (by omega) (by omega) hnanos ?_ hrange
    · rw [hdate]
      exact Time.Date.isValid_ofDays _
    · rw [hdate, Time.Date.toDays_ofDays]
      omega
  by_cases hleap : t.nanos < 1000000000
  · have h := @hread 0 t.nanos (by omega) hleap (by omega) (if_pos hleap)
    rwa [if_neg (by omega)] at h
  · have hends : t.nanos < 2000000000 ∧ t.seconds % 60 = 59 := by
      simpa [isShown, hleap] using hshown
    have h := @hread 1 (t.nanos - 1000000000) (by omega) (by omega) (fun _ => hends.2) (if_neg hleap)
    rwa [if_pos (by omega), Nat.sub_add_cancel (by omega)] at h

end Stamp

end Backlog
