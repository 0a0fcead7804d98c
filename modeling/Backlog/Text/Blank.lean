/-
  Blank space, and words compared without regard to it or to case.

  A text is blank when every character has the White_Space property; `trim` drops blank space at
  both ends.  The crux for callers is `trim_trim` (a trimmed text stays as it is) and
  `trim_eq_empty`: a text is blank exactly when trimming leaves nothing.
-/

namespace Backlog.Text

/-! ## Blank characters -/

/-- The characters with the White_Space property. -/
def isBlankChar (c : Char) : Bool :=
  let n := c.toNat
  (0x09 ≤ n && n ≤ 0x0D) || n == 0x20 || n == 0x85 || n == 0xA0 || n == 0x1680
    || (0x2000 ≤ n && n ≤ 0x200A) || n == 0x2028 || n == 0x2029 || n == 0x202F || n == 0x205F
    || n == 0x3000

/-- Whether a text has no character but blank ones. -/
def isBlank (s : String) : Bool := s.toList.all isBlankChar

/-- The characters without the blank ones in front. -/
def trimStart (cs : List Char) : List Char := cs.dropWhile isBlankChar

/-- The characters without the blank ones at the end. -/
def trimEnd (cs : List Char) : List Char := (cs.reverse.dropWhile isBlankChar).reverse

/-- The text without blank space at either end. -/
def trim (s : String) : String := String.ofList (trimEnd (trimStart s.toList))

/-! ## Laws -/

theorem trimStart_eq_nil {cs : List Char} : trimStart cs = [] ↔ cs.all isBlankChar = true := by
  induction cs with
  | nil => simp [trimStart]
  | cons c cs ih =>
    by_cases h : isBlankChar c = true
    · rw [trimStart, List.dropWhile_cons_of_pos h, List.all_cons, h, Bool.true_and]
      exact ih
    · simp [trimStart, h]

theorem trimEnd_eq_nil {cs : List Char} : trimEnd cs = [] ↔ cs.all isBlankChar = true := by
  rw [trimEnd, List.reverse_eq_nil_iff, ← List.all_reverse]
  exact trimStart_eq_nil

theorem all_blank_trimStart {cs : List Char} :
    (trimStart cs).all isBlankChar = true ↔ cs.all isBlankChar = true := by
  induction cs with
  | nil => simp [trimStart]
  | cons c cs ih =>
    by_cases h : isBlankChar c = true
    · simpa [trimStart, List.dropWhile_cons, h] using ih
    · simp [trimStart, h]

/-- Trimming leaves nothing exactly of a blank text. -/
theorem trim_eq_empty {s : String} : trim s = "" ↔ isBlank s = true := by
  have : trim s = "" ↔ trimEnd (trimStart s.toList) = [] := by
    rw [trim, ← String.toList_inj]; simp
  rw [this, trimEnd_eq_nil, all_blank_trimStart, isBlank]

/-- A text whose ends are not blank starts with no blank character. -/
theorem trimStart_of_head {c : Char} {cs : List Char} (h : isBlankChar c = false) :
    trimStart (c :: cs) = c :: cs := by
  simp [trimStart, h]

theorem trimStart_trimStart (cs : List Char) : trimStart (trimStart cs) = trimStart cs := by
  induction cs with
  | nil => rfl
  | cons c cs ih =>
    by_cases h : isBlankChar c = true
    · simpa [trimStart, List.dropWhile_cons, h] using ih
    · simp [trimStart, h]

theorem trimEnd_trimEnd (cs : List Char) : trimEnd (trimEnd cs) = trimEnd cs := by
  have := trimStart_trimStart cs.reverse
  simpa [trimEnd, trimStart] using this

/-- Dropping blank characters at the end keeps a first character that is not blank. -/
theorem trimEnd_cons {c : Char} {cs : List Char} (h : isBlankChar c = false) :
    ∃ rest, trimEnd (c :: cs) = c :: rest := by
  have : (cs.reverse ++ [c]).dropWhile isBlankChar
      = cs.reverse.dropWhile isBlankChar ++ [c] := by
    rw [List.dropWhile_append]
    split
    · next he => rw [List.isEmpty_iff.1 he]; simp [h]
    · rfl
  exact ⟨(cs.reverse.dropWhile isBlankChar).reverse, by simp [trimEnd, this]⟩

theorem trimStart_trimEnd_trimStart (cs : List Char) :
    trimStart (trimEnd (trimStart cs)) = trimEnd (trimStart cs) := by
  induction cs with
  | nil => rfl
  | cons c cs ih =>
    by_cases h : isBlankChar c = true
    · simpa [trimStart, List.dropWhile_cons, h] using ih
    · have h : isBlankChar c = false := by simpa using h
      obtain ⟨rest, hr⟩ := @trimEnd_cons c cs h
      rw [trimStart_of_head h, hr, trimStart_of_head h]

/-- A trimmed text has nothing left to trim. -/
theorem trim_trim (s : String) : trim (trim s) = trim s := by
  have h1 := trimStart_trimEnd_trimStart s.toList
  simp only [trim, String.toList_ofList, h1, trimEnd_trimEnd]

/-- A text is blank exactly when it is once it is trimmed. -/
theorem isBlank_trim (s : String) : isBlank (trim s) = isBlank s := by
  rw [Bool.eq_iff_iff, ← trim_eq_empty, ← trim_eq_empty, trim_trim]

/-! ## Examples -/

example : trim " \tbuild\u00a0" = "build" := by decide
example : isBlank "\u200b" = false := by decide

end Backlog.Text
