/-
  Numbers written and read back.

  Program: a number is written as its decimal digits, perhaps with zeros in front up to a width; a row
  of digits is read from the left.

  Specification: reading gives the number that was written (`natOfDigits_toDigits`,
  `readUnsigned?_toString`, `natOfDigits_zeroPadded`), every character written is a digit, and only zero
  begins with a zero.
-/
import Backlog.Text.Digits

namespace Backlog

/-- A reader goes on where its check holds. -/
theorem guard_of {p : Prop} [Decidable p] (h : p) : (guard p : Option Unit) = some () := if_pos h

/-- A reader goes on with what its first step gives. -/
theorem bind_of {α β : Type} {first : Option α} {next : α → Option β} {a : α} {b : β}
    (h : first = some a) (hnext : next a = some b) : (first >>= next) = some b := by
  rw [h]
  exact hnext

namespace Text

/-! ## Digits -/

theorem toNat_of_isDigit {c : Char} (h : isDigit c = true) : 48 ≤ c.toNat ∧ c.toNat ≤ 57 := by
  obtain ⟨hlow, hhigh⟩ := Bool.and_eq_true_iff.mp h
  exact ⟨of_decide_eq_true hlow, of_decide_eq_true hhigh⟩

theorem isDigit_iff {c : Char} : isDigit c = true ↔ c.isDigit = true := by
  simp [isDigit, Char.isDigit, Char.le_def]

theorem natOfDigits_toDigits (n : Nat) : natOfDigits (Nat.toDigits 10 n) = n :=
  Nat.ofDigitChars_ten_toDigits

theorem natOfDigits_append_replicate (k : Nat) (cs : List Char) :
    natOfDigits (List.replicate k '0' ++ cs) = natOfDigits cs := by
  show Nat.ofDigitChars 10 (List.replicate k '0' ++ cs) 0 = Nat.ofDigitChars 10 cs 0
  rw [Nat.ofDigitChars_append, Nat.ofDigitChars_replicate_zero, Nat.mul_zero]

theorem isDigit_of_mem_toDigits {n : Nat} {c : Char} (h : c ∈ Nat.toDigits 10 n) :
    isDigit c = true :=
  isDigit_iff.mpr (Nat.isDigit_of_mem_toDigits (by decide) (by decide) h)

/-- Only zero is written with a zero in front. -/
theorem head_toDigits {n : Nat} {cs : List Char} (h : Nat.toDigits 10 n = '0' :: cs) : n = 0 := by
  induction n using Nat.base_induction 10 (by decide) generalizing cs with
  | single n hn =>
    rw [Nat.toDigits_of_lt_base hn, List.cons.injEq] at h
    exact Nat.digitChar_eq_zero.mp h.1
  | digit n d hd hn ih =>
    rw [← Nat.toDigits_append_toDigits (by decide) hn hd] at h
    obtain ⟨c, rest, hrest⟩ := List.exists_cons_of_ne_nil (@Nat.toDigits_ne_nil n 10)
    rw [hrest, List.cons_append, List.cons.injEq] at h
    have hzero : n = 0 := ih (h.1 ▸ hrest)
    omega

/-- A written number has no sign to take off, and is read as that number. -/
theorem readUnsigned?_toString {n : Nat} (h : n < Nat.pow 2 64) : readUnsigned? (toString n) = some n := by
  have hchars : (toString n).toList = Nat.toDigits 10 n := by
    rw [Nat.toString_eq_ofList_toDigits, String.toList_ofList]
  obtain ⟨c, rest, hdigits⟩ := List.exists_cons_of_ne_nil (@Nat.toDigits_ne_nil n 10)
  have hall : ∀ d ∈ c :: rest, isDigit d = true := by
    intro d hd
    exact isDigit_of_mem_toDigits (hdigits ▸ hd)
  have hread : readDigits? (c :: rest) = some n := by
    rw [readDigits?, if_neg (by simp), if_pos (List.all_eq_true.mpr hall), ← hdigits,
      natOfDigits_toDigits]
  rw [readUnsigned?, hchars, hdigits]
  show (readDigits? _).filter _ = _
  split
  · next heq =>
    cases heq
    exact absurd (hall '+' List.mem_cons_self) (by decide)
  · rw [hread]
    exact Option.filter_eq_some_iff.mpr ⟨rfl, decide_eq_true h⟩

/-! ## Numbers of a fixed width -/

theorem toList_zeroPadded (width n : Nat) : (zeroPadded width n).toList
    = List.replicate (width - (Nat.toDigits 10 n).length) '0' ++ Nat.toDigits 10 n := by
  simp only [zeroPadded, Nat.toString_eq_ofList_toDigits, String.toList_append, String.toList_ofList,
    String.length_ofList]

theorem natOfDigits_zeroPadded (width n : Nat) : natOfDigits (zeroPadded width n).toList = n := by
  rw [toList_zeroPadded, natOfDigits_append_replicate, natOfDigits_toDigits]

theorem isDigit_of_mem_zeroPadded {width n : Nat} {c : Char} (h : c ∈ (zeroPadded width n).toList) :
    isDigit c = true := by
  rw [toList_zeroPadded, List.mem_append] at h
  rcases h with h | h
  · rw [(List.mem_replicate.mp h).2]
    rfl
  · exact isDigit_of_mem_toDigits h

/-- A number that fits the width fills it. -/
theorem length_zeroPadded {width n : Nat} (hwidth : 0 < width) (hn : n < Nat.pow 10 width) :
    (zeroPadded width n).toList.length = width := by
  have hfits : (Nat.toDigits 10 n).length ≤ width :=
    (Nat.length_toDigits_le_iff (by decide) hwidth).mpr hn
  rw [toList_zeroPadded, List.length_append, List.length_replicate]
  omega

end Text

end Backlog
