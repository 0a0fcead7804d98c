/-
  JSON values written and read back.

  Program: a value is written on one line (`compact`) or over several (`pretty`), and the reader takes
  characters off the front, with fuel for its depth.

  Specification: what is written of a value is read as that value (`read?_compact`, `read?_pretty`), as
  far as its numbers are whole ones within range.

  The crux is that the two written forms are ways of writing that differ in blank space only
  (`Written`), and that the reader takes every such way (`readValue?_written`).  Each call of the
  reader consumes a character or hands on a shorter text, so as much fuel as there are characters is
  enough.
-/
import Mathlib.Data.Option.Basic
import Backlog.Json.Record
import Backlog.Proofs.Text.Digits

namespace Backlog.Json

open Backlog.Text (isDigit natOfDigits)
open Raw (isSpace skipSpace)

/-! ## Ways of writing a value -/

/-- Characters that may stand between the parts of a value. -/
def Spaces (cs : List Char) : Prop := ∀ c ∈ cs, isSpace c = true

mutual

/-- Ways of writing a value that differ in blank space only. -/
inductive Written : Json → List Char → Prop where
  | null : Written .null "null".toList
  | bool (b : Bool) : Written (.bool b) (if b then "true".toList else "false".toList)
  | number {n : Int} (hlow : -Int.pow 2 63 ≤ n) (hhigh : n < Int.pow 2 64) :
      Written (.number (.whole n)) (Number.whole n).render
  | text (s : String) : Written (.text s) (quote s)
  | array {vs : List Json} {cs : List Char} (hitems : WrittenItems vs cs) :
      Written (.array vs) ('[' :: (cs ++ [']']))
  | object {fs : List (String × Json)} {cs : List Char} (hfields : WrittenFields fs cs) :
      Written (.object fs) ('{' :: (cs ++ ['}']))

/-- Ways of writing values with commas between them. -/
inductive WrittenItems : List Json → List Char → Prop where
  | none {space : List Char} (hspace : Spaces space) : WrittenItems [] space
  | last {v : Json} {before cs after : List Char} (hbefore : Spaces before) (hvalue : Written v cs)
      (hafter : Spaces after) : WrittenItems [v] (before ++ (cs ++ after))
  | more {v w : Json} {vs : List Json} {before cs after ds : List Char} (hbefore : Spaces before)
      (hvalue : Written v cs) (hafter : Spaces after) (hitems : WrittenItems (w :: vs) ds) :
      WrittenItems (v :: w :: vs) (before ++ (cs ++ (after ++ ',' :: ds)))

/-- Ways of writing fields with commas between them. -/
inductive WrittenFields : List (String × Json) → List Char → Prop where
  | none {space : List Char} (hspace : Spaces space) : WrittenFields [] space
  | last {k : String} {v : Json} {before gap cs after : List Char} (hbefore : Spaces before)
      (hgap : Spaces gap) (hvalue : Written v cs) (hafter : Spaces after) :
      WrittenFields [(k, v)] (before ++ (quote k ++ ':' :: (gap ++ (cs ++ after))))
  | more {k : String} {v : Json} {f : String × Json} {fs : List (String × Json)}
      {before gap cs after ds : List Char} (hbefore : Spaces before) (hgap : Spaces gap)
      (hvalue : Written v cs) (hafter : Spaces after) (hfields : WrittenFields (f :: fs) ds) :
      WrittenFields ((k, v) :: f :: fs)
        (before ++ (quote k ++ ':' :: (gap ++ (cs ++ (after ++ ',' :: ds)))))

end

/-! ## Blank space -/

namespace Raw

theorem skipSpace_space {c : Char} {rest : List Char} (h : isSpace c = true) :
    skipSpace (c :: rest) = skipSpace rest :=
  List.dropWhile_cons_of_pos h

theorem skipSpace_cons {c : Char} {rest : List Char} (h : isSpace c = false) :
    skipSpace (c :: rest) = c :: rest :=
  List.dropWhile_cons_of_neg (by simp [h])

theorem skipSpace_append {space rest : List Char} (h : Spaces space) :
    skipSpace (space ++ rest) = skipSpace rest := by
  induction space with
  | nil => rfl
  | cons c space ih =>
    rw [List.cons_append, skipSpace_space (h c List.mem_cons_self)]
    exact ih fun d hd => h d (List.mem_cons_of_mem c hd)

theorem skipSpace_skipSpace (cs : List Char) : skipSpace (skipSpace cs) = skipSpace cs := by
  induction cs with
  | nil => rfl
  | cons c cs ih =>
    cases hc : isSpace c with
    | true => rw [skipSpace_space hc, ih]
    | false => rw [skipSpace_cons hc, skipSpace_cons hc]

/-- The reader does not care about space in front. -/
theorem readValue?_congr {cs ds : List Char} (h : skipSpace cs = skipSpace ds) (fuel : Nat) :
    readValue? fuel cs = readValue? fuel ds := by
  cases fuel with
  | zero => rfl
  | succ fuel => simp only [readValue?, h]

theorem readItems?_congr {cs ds : List Char} (h : skipSpace cs = skipSpace ds) (fuel : Nat) :
    readItems? fuel cs = readItems? fuel ds := by
  cases fuel with
  | zero => rfl
  | succ fuel => simp only [readItems?, readValue?_congr h]

theorem readFields?_congr {cs ds : List Char} (h : skipSpace cs = skipSpace ds) (fuel : Nat) :
    readFields? fuel cs = readFields? fuel ds := by
  cases fuel with
  | zero => rfl
  | succ fuel => simp only [readFields?, h]

/-! ## Texts -/

theorem join?_unit {n : Nat} (hhigh : isHighSurrogate n = false) (hlow : isLowSurrogate n = false)
    (ps : List Piece) : join? (.unit n :: ps) = (join? ps).map (Char.ofNat n :: ·) := by
  cases ps with
  | nil => simp [join?, hhigh, hlow]
  | cons p ps => cases p <;> simp [join?, hhigh, hlow]

theorem hex4?_control {n : Nat} (hn : n < 32) :
    hex4? '0' '0' (hexDigit (n / 16)) (hexDigit n) = some n := by
  have hall : ∀ n < 32, hex4? '0' '0' (hexDigit (n / 16)) (hexDigit n) = some n := by decide
  exact hall n hn

theorem pieces?_letter {e c : Char} (he : e ≠ 'u') (hletter : escaped? e = some c) (rest : List Char) :
    pieces? ('\\' :: e :: rest) = (pieces? rest).map fun q => (.char c :: q.1, q.2) := by
  rw [pieces?]
  · rw [hletter]
    cases pieces? rest <;> rfl
  · intro _ _ _ _ _ hu
    exact absurd hu he

theorem pieces?_char {c : Char} (hquote : c ≠ '"') (hslash : c ≠ '\\') (hcontrol : ¬ c.toNat < 0x20)
    (rest : List Char) :
    pieces? (c :: rest) = (pieces? rest).map fun q => (.char c :: q.1, q.2) := by
  rw [pieces?]
  · rw [guard_of (show 0x20 ≤ c.toNat by omega)]
    cases pieces? rest <;> rfl
  · exact hquote
  · intro _ _ _ _ _ h
    exact absurd h hslash
  · intro _ _ h
    exact absurd h hslash

/-- Whatever is written of a character is one piece that stands for it. -/
theorem exists_piece (c : Char) : ∃ p : Piece,
    (∀ rest, pieces? (escapeChar c ++ rest) = (pieces? rest).map fun q => (p :: q.1, q.2)) ∧
      ∀ ps, join? (p :: ps) = (join? ps).map (c :: ·) := by
  unfold escapeChar
  -- the seven characters that are written with one character after a backslash
  iterate 7
    split
    · next h => exact ⟨.char c, pieces?_letter (by decide) (by rw [h]; rfl), fun _ => rfl⟩
  split
  · next hcontrol =>
    have hhigh : isHighSurrogate c.toNat = false := by simp [isHighSurrogate]; omega
    have hlow : isLowSurrogate c.toNat = false := by simp [isLowSurrogate]; omega
    refine ⟨.unit c.toNat, fun rest => ?_, fun ps => ?_⟩
    · show pieces? ('\\' :: 'u' :: '0' :: '0' :: hexDigit (c.toNat / 16) :: hexDigit c.toNat :: rest) = _
      rw [pieces?, hex4?_control hcontrol]
      cases pieces? rest <;> rfl
    · rw [join?_unit hhigh hlow, Char.ofNat_toNat]
  · next hquote hslash _ _ _ _ _ hcontrol =>
    exact ⟨.char c, pieces?_char hquote hslash hcontrol, fun _ => rfl⟩

theorem readText?_quote (s : String) (rest : List Char) :
    readText? (s.toList.flatMap escapeChar ++ '"' :: rest) = some (some s, rest) := by
  have hpieces : ∀ cs : List Char, ∃ ps, pieces? (cs.flatMap escapeChar ++ '"' :: rest) = some (ps, rest) ∧
      join? ps = some cs := by
    intro cs
    induction cs with
    | nil => exact ⟨[], rfl, rfl⟩
    | cons c cs ih =>
      obtain ⟨ps, hps, hjoin⟩ := ih
      obtain ⟨p, hp, hchar⟩ := exists_piece c
      refine ⟨p :: ps, ?_, ?_⟩
      · rw [List.flatMap_cons, List.append_assoc, hp, hps]
        rfl
      · rw [hchar, hjoin]
        rfl
  obtain ⟨ps, hps, hjoin⟩ := hpieces s.toList
  simp [readText?, hps, hjoin]

/-! ## Numbers -/

/-- What follows does not go on a number. -/
def Stops (rest : List Char) : Prop :=
  ∀ c ∈ rest.head?, isDigit c = false ∧ c ≠ '.' ∧ c ≠ 'e' ∧ c ≠ 'E'

theorem readFraction?_of_stops {rest : List Char} (h : Stops rest) :
    readFraction? rest = some ([], rest) := by
  unfold readFraction?
  split
  · next tail => exact absurd rfl (h '.' rfl).2.1
  · rfl

theorem readExponent?_of_stops {rest : List Char} (h : Stops rest) :
    readExponent? rest = some (none, rest) := by
  unfold readExponent?
  split
  · next c tail =>
    obtain ⟨-, -, he, hE⟩ := h c rfl
    rw [if_neg (by simp [he, hE])]
  · rfl

theorem takeWhile_digits {ds rest : List Char} (hdigits : ∀ c ∈ ds, isDigit c = true)
    (h : Stops rest) : (ds ++ rest).takeWhile isDigit = ds := by
  rw [List.takeWhile_append_of_pos hdigits]
  cases rest with
  | nil => exact List.append_nil ds
  | cons c rest => rw [List.takeWhile_cons_of_neg (by simp [(h c rfl).1]), List.append_nil]

theorem numberOf_toDigits {negative : Bool} {m : Nat} {n : Int}
    (hn : n = if negative then -(m : Int) else m) (hzero : negative = true → m ≠ 0)
    (hlow : -Int.pow 2 63 ≤ n) (hhigh : n < Int.pow 2 64) :
    numberOf negative (Nat.toDigits 10 m) [] none = some (.whole n) := by
  have hsign : (negative && (m : Int) == 0) = false := by
    cases negative with
    | false => rfl
    | true => simpa using hzero rfl
  simp only [numberOf, Text.natOfDigits_toDigits, ← hn, hsign, List.isEmpty_nil, Option.isNone_none,
    Bool.not_false, Bool.and_self, hlow, hhigh, decide_true, if_true]

/-- The reader takes all the digits, also where the first is a zero and stands alone. -/
theorem readNumber?_toDigits {negative : Bool} {m : Nat} {cs rest : List Char} (h : Stops rest)
    (hcs : negative = false ∧ cs = Nat.toDigits 10 m ++ rest ∨
      negative = true ∧ cs = '-' :: (Nat.toDigits 10 m ++ rest)) :
    readNumber? cs = some (numberOf negative (Nat.toDigits 10 m) [] none, rest) := by
  have hdigits : ∀ c ∈ Nat.toDigits 10 m, isDigit c = true := fun c => Text.isDigit_of_mem_toDigits
  have htake := takeWhile_digits hdigits h
  obtain ⟨c, ds, hds⟩ := List.exists_cons_of_ne_nil (@Nat.toDigits_ne_nil m 10)
  have hzero : c = '0' → ds = [] := by
    rintro rfl
    obtain rfl : m = 0 := Text.head_toDigits hds
    exact (List.cons.inj hds).2.symm
  have hminus : c ≠ '-' := by
    rintro rfl
    exact absurd (hdigits '-' (hds ▸ List.mem_cons_self)) (by decide)
  rw [hds, List.cons_append] at hcs htake
  rw [hds]
  unfold readNumber?
  split
  next sign tail hsign =>
  obtain ⟨rfl, rfl⟩ : sign = negative ∧ tail = c :: (ds ++ rest) := by
    rcases hcs with ⟨rfl, rfl⟩ | ⟨rfl, rfl⟩
    · split at hsign
      · next hhead => exact absurd (List.cons.inj hhead).1 hminus
      · cases hsign
        exact ⟨rfl, rfl⟩
    · cases hsign
      exact ⟨rfl, rfl⟩
  split
  · next hhead =>
    obtain ⟨rfl, rfl⟩ := List.cons.inj hhead
    obtain rfl := hzero rfl
    exact bind_of (guard_of rfl) (bind_of (readFraction?_of_stops h)
      (bind_of (readExponent?_of_stops h) rfl))
  · have hfraction : readFraction? ((c :: (ds ++ rest)).drop (c :: ds).length) = some ([], rest) := by
      rw [List.length_cons, List.drop_succ_cons, List.drop_left]
      exact readFraction?_of_stops h
    rw [htake]
    exact bind_of (guard_of rfl) (bind_of hfraction (bind_of (readExponent?_of_stops h) rfl))

theorem render_ofNat (m : Nat) : (Number.whole (Int.ofNat m)).render = Nat.toDigits 10 m := by
  simp [Number.render, Int.repr_eq_if]

theorem render_negSucc (m : Nat) :
    (Number.whole (Int.negSucc m)).render = '-' :: Nat.toDigits 10 (m + 1) := by
  simp [Number.render, Int.repr_eq_if]

theorem readNumber?_render {n : Int} (hlow : -Int.pow 2 63 ≤ n) (hhigh : n < Int.pow 2 64)
    {rest : List Char} (h : Stops rest) :
    readNumber? ((Number.whole n).render ++ rest) = some (some (.whole n), rest) := by
  cases n with
  | ofNat m =>
    rw [render_ofNat, readNumber?_toDigits h (.inl ⟨rfl, rfl⟩),
      numberOf_toDigits (m := m) (n := Int.ofNat m) rfl Bool.false_ne_true.elim hlow hhigh]
  | negSucc m =>
    rw [render_negSucc, List.cons_append, readNumber?_toDigits h (.inr ⟨rfl, rfl⟩),
      numberOf_toDigits (m := m + 1) (n := Int.negSucc m) rfl (fun _ => Nat.succ_ne_zero m) hlow hhigh]

/-! ## Values -/

theorem stops_cons {c : Char} {rest : List Char} (hdigit : isDigit c = false) (hpoint : c ≠ '.')
    (he : c ≠ 'e') (hE : c ≠ 'E') : Stops (c :: rest) := by
  rintro _ ⟨⟩
  exact ⟨hdigit, hpoint, he, hE⟩

theorem stops_append {space rest : List Char} (hspace : Spaces space) (h : Stops rest) :
    Stops (space ++ rest) := by
  cases space with
  | nil => exact h
  | cons c space =>
    have hc := hspace c List.mem_cons_self
    have hcases : c = ' ' ∨ c = '\n' ∨ c = '\t' ∨ c = '\r' := by
      simpa [isSpace, or_assoc] using hc
    rcases hcases with rfl | rfl | rfl | rfl <;>
      exact stops_cons (by decide) (by decide) (by decide) (by decide)

/-- A number begins with a digit or a sign. -/
theorem head_render (n : Int) : ∃ c tail, (Number.whole n).render = c :: tail ∧
    (isDigit c = true ∨ c = '-') := by
  cases n with
  | ofNat m =>
    obtain ⟨c, ds, hds⟩ := List.exists_cons_of_ne_nil (@Nat.toDigits_ne_nil m 10)
    exact ⟨c, ds, (render_ofNat m).trans hds,
      .inl (Text.isDigit_of_mem_toDigits (hds ▸ List.mem_cons_self))⟩
  | negSucc m => exact ⟨'-', Nat.toDigits 10 (m + 1), render_negSucc m, .inr rfl⟩

theorem not_space_of_digit {c : Char} (h : isDigit c = true ∨ c = '-') :
    isSpace c = false ∧ c ≠ 'n' ∧ c ≠ 't' ∧ c ≠ 'f' ∧ c ≠ '"' ∧ c ≠ '[' ∧ c ≠ ']' ∧ c ≠ '{' := by
  have hne : ∀ d : Char, isDigit d = false ∧ d ≠ '-' → c ≠ d := by
    rintro d ⟨hdigit, hminus⟩ rfl
    rcases h with h | h
    · rw [h] at hdigit
      cases hdigit
    · exact hminus h
  refine ⟨?_, hne _ (by decide), hne _ (by decide), hne _ (by decide), hne _ (by decide),
    hne _ (by decide), hne _ (by decide), hne _ (by decide)⟩
  simp [isSpace, hne ' ' (by decide), hne '\n' (by decide), hne '\t' (by decide),
    hne '\r' (by decide)]

theorem readValue?_number {c : Char} {tail rest : List Char} {n : Option Number} (fuel : Nat)
    (hc : isDigit c = true ∨ c = '-') (h : readNumber? (c :: tail) = some (n, rest)) :
    readValue? (fuel + 1) (c :: tail) = some (.number n, rest) := by
  obtain ⟨hspace, hn, ht, hf, hquote, harray, -, hobject⟩ := not_space_of_digit hc
  rw [readValue?, skipSpace_cons hspace]
  split
  · next heq => exact absurd (List.cons.inj heq).1 hn
  · next heq => exact absurd (List.cons.inj heq).1 ht
  · next heq => exact absurd (List.cons.inj heq).1 hf
  · next heq => exact absurd (List.cons.inj heq).1 hquote
  · next heq => exact absurd (List.cons.inj heq).1 harray
  · next heq => exact absurd (List.cons.inj heq).1 hobject
  · rw [h]
    rfl

end Raw

theorem Written.head {v : Json} {cs : List Char} (h : Written v cs) :
    ∃ c tail, cs = c :: tail ∧ isSpace c = false ∧ c ≠ ']' := by
  cases h with
  | null | text | array | object => exact ⟨_, _, rfl, by decide, by decide⟩
  | bool b => cases b <;> exact ⟨_, _, rfl, by decide, by decide⟩
  | @number n =>
    obtain ⟨c, tail, hrender, hc⟩ := Raw.head_render n
    obtain ⟨hspace, -, -, -, -, -, hclose, -⟩ := Raw.not_space_of_digit hc
    exact ⟨c, tail, hrender, hspace, hclose⟩

theorem WrittenItems.head {v : Json} {vs : List Json} {cs : List Char} (h : WrittenItems (v :: vs) cs)
    (rest : List Char) : ∃ c tail, skipSpace (cs ++ rest) = c :: tail ∧ c ≠ ']' := by
  have hfirst : ∀ {before ds after : List Char}, Spaces before → Written v ds →
      ∃ c tail, skipSpace (before ++ (ds ++ after) ++ rest) = c :: tail ∧ c ≠ ']' := by
    intro before ds after hbefore hvalue
    obtain ⟨c, tail, rfl, hspace, hclose⟩ := hvalue.head
    rw [List.append_assoc, Raw.skipSpace_append hbefore]
    exact ⟨c, _, Raw.skipSpace_cons hspace, hclose⟩
  cases h with
  | last hbefore hvalue => exact hfirst hbefore hvalue
  | more hbefore hvalue => exact hfirst hbefore hvalue

theorem WrittenFields.head {f : String × Json} {fs : List (String × Json)} {cs : List Char}
    (h : WrittenFields (f :: fs) cs) (rest : List Char) :
    ∃ tail, skipSpace (cs ++ rest) = '"' :: tail := by
  cases h with
  | last hbefore =>
    exact ⟨_, by rw [List.append_assoc, Raw.skipSpace_append hbefore]; exact Raw.skipSpace_cons rfl⟩
  | more hbefore =>
    exact ⟨_, by rw [List.append_assoc, Raw.skipSpace_append hbefore]; exact Raw.skipSpace_cons rfl⟩

namespace Raw

/-! ### One step of the reader -/

variable {fuel : Nat} {cs after rest left : List Char} {k : String} {v : Raw} {vs : List Raw}
  {fs : List (Option String × Raw)}

theorem readValue?_text (s : String) : readValue? (fuel + 1) (quote s ++ rest)
    = some (.text (some s), rest) := by
  have hquote : quote s ++ rest = '"' :: (s.toList.flatMap escapeChar ++ '"' :: rest) := by
    simp [quote]
  rw [hquote, readValue?, skipSpace_cons (by decide)]
  simp only [readText?_quote, Option.map_some]

theorem readValue?_array_nil (h : skipSpace cs = ']' :: rest) :
    readValue? (fuel + 1) ('[' :: cs) = some (.array [], rest) := by
  rw [readValue?, skipSpace_cons (by decide)]
  simp only [h]

theorem readValue?_array {c : Char} (hhead : skipSpace cs = c :: left) (hc : c ≠ ']')
    (h : readItems? fuel cs = some (vs, rest)) :
    readValue? (fuel + 1) ('[' :: cs) = some (.array vs, rest) := by
  rw [readItems?_congr (skipSpace_skipSpace cs).symm, hhead] at h
  rw [readValue?, skipSpace_cons (by decide)]
  simp only [hhead]
  split
  · next heq => exact absurd (List.cons.inj heq).1 hc
  · rw [h]
    rfl

theorem readValue?_object_nil (h : skipSpace cs = '}' :: rest) :
    readValue? (fuel + 1) ('{' :: cs) = some (.object [], rest) := by
  rw [readValue?, skipSpace_cons (by decide)]
  simp only [h]

theorem readValue?_object (hhead : skipSpace cs = '"' :: left)
    (h : readFields? fuel cs = some (fs, rest)) :
    readValue? (fuel + 1) ('{' :: cs) = some (.object fs, rest) := by
  rw [readFields?_congr (skipSpace_skipSpace cs).symm, hhead] at h
  rw [readValue?, skipSpace_cons (by decide)]
  simp only [hhead]
  split
  · next heq => cases heq
  · rw [h]
    rfl

theorem readItems?_last (hafter : Spaces after)
    (h : readValue? fuel cs = some (v, after ++ ']' :: rest)) :
    readItems? (fuel + 1) cs = some ([v], rest) := by
  simp only [readItems?, h, Option.bind_eq_bind, Option.bind_some, skipSpace_append hafter,
    skipSpace_cons (show isSpace ']' = false by decide)]
  rfl

theorem readItems?_more (hafter : Spaces after)
    (h : readValue? fuel cs = some (v, after ++ ',' :: left))
    (hmore : readItems? fuel left = some (vs, rest)) :
    readItems? (fuel + 1) cs = some (v :: vs, rest) := by
  simp only [readItems?, h, Option.bind_eq_bind, Option.bind_some, skipSpace_append hafter,
    skipSpace_cons (show isSpace ',' = false by decide), hmore]
  rfl

theorem skipSpace_key {before : List Char} (hbefore : Spaces before) (k : String) (rest : List Char) :
    skipSpace (before ++ (quote k ++ rest)) = '"' :: (k.toList.flatMap escapeChar ++ '"' :: rest) := by
  rw [skipSpace_append hbefore, quote, List.cons_append, skipSpace_cons (by decide), List.append_assoc]
  rfl

theorem readFields?_last {before gap : List Char} (hbefore : Spaces before) (hgap : Spaces gap)
    (hafter : Spaces after) (h : readValue? fuel cs = some (v, after ++ '}' :: rest)) :
    readFields? (fuel + 1) (before ++ (quote k ++ ':' :: (gap ++ cs))) = some ([(some k, v)], rest) := by
  have hvalue : readValue? fuel (gap ++ cs) = some (v, after ++ '}' :: rest) :=
    (readValue?_congr (skipSpace_append hgap) fuel).trans h
  simp only [readFields?, skipSpace_key hbefore, readText?_quote, hvalue, Option.bind_eq_bind,
    Option.bind_some, skipSpace_cons (show isSpace ':' = false by decide), skipSpace_append hafter,
    skipSpace_cons (show isSpace '}' = false by decide)]
  rfl

theorem readFields?_more {before gap : List Char} (hbefore : Spaces before) (hgap : Spaces gap)
    (hafter : Spaces after) (h : readValue? fuel cs = some (v, after ++ ',' :: left))
    (hmore : readFields? fuel left = some (fs, rest)) :
    readFields? (fuel + 1) (before ++ (quote k ++ ':' :: (gap ++ cs)))
      = some ((some k, v) :: fs, rest) := by
  have hvalue : readValue? fuel (gap ++ cs) = some (v, after ++ ',' :: left) :=
    (readValue?_congr (skipSpace_append hgap) fuel).trans h
  simp only [readFields?, skipSpace_key hbefore, readText?_quote, hvalue, Option.bind_eq_bind,
    Option.bind_some, skipSpace_cons (show isSpace ':' = false by decide), skipSpace_append hafter,
    skipSpace_cons (show isSpace ',' = false by decide), hmore]
  rfl

theorem stops_after {mark : Char} (hmark : mark = ',' ∨ mark = ']' ∨ mark = '}') (hafter : Spaces after)
    (rest : List Char) : Stops (after ++ mark :: rest) := by
  refine stops_append hafter ?_
  rcases hmark with rfl | rfl | rfl <;>
    exact stops_cons (by decide) (by decide) (by decide) (by decide)

/-! ### The whole of the reader -/

/-- The reader takes every way of writing a value, given as much fuel as there are characters. -/
theorem readValue?_written (fuel : Nat) :
    (∀ {v : Json} {cs : List Char}, Written v cs → cs.length ≤ fuel → ∀ {rest}, Stops rest →
      readValue? fuel (cs ++ rest) = some (v.toRaw, rest)) ∧
    (∀ {v : Json} {vs : List Json} {cs : List Char}, WrittenItems (v :: vs) cs → cs.length < fuel →
      ∀ rest, readItems? fuel (cs ++ ']' :: rest) = some (itemsToRaw (v :: vs), rest)) ∧
    (∀ {f : String × Json} {fs : List (String × Json)} {cs : List Char}, WrittenFields (f :: fs) cs →
      cs.length < fuel →
      ∀ rest, readFields? fuel (cs ++ '}' :: rest) = some (fieldsToRaw (f :: fs), rest)) := by
  -- the induction is on the fuel, which is what the reader recurses on
  induction fuel with
  | zero =>
    refine ⟨?_, fun _ h => absurd h (Nat.not_lt_zero _), fun _ h => absurd h (Nat.not_lt_zero _)⟩
    intro v cs hvalue hlength
    obtain ⟨c, tail, rfl, -⟩ := hvalue.head
    exact absurd hlength (Nat.not_succ_le_zero _)
  | succ fuel ih =>
    obtain ⟨ihvalue, ihitems, ihfields⟩ := ih
    refine ⟨?_, ?_, ?_⟩
    · intro v cs hvalue hlength rest hstops
      cases hvalue with
      | null => rfl
      | bool b => cases b <;> rfl
      | @number n hlow hhigh =>
        obtain ⟨c, tail, hrender, hc⟩ := head_render n
        have hread := readNumber?_render hlow hhigh hstops
        rw [hrender, List.cons_append] at hread ⊢
        exact readValue?_number fuel hc hread
      | text s => exact readValue?_text s
      | @array vs cs hitems =>
        rw [List.length_cons, List.length_append, List.length_singleton] at hlength
        rw [List.cons_append, List.append_assoc, List.singleton_append]
        cases vs with
        | nil =>
          cases hitems with
          | none hspace => exact readValue?_array_nil (skipSpace_append hspace)
        | cons v vs =>
          obtain ⟨c, tail, hhead, hclose⟩ := hitems.head (']' :: rest)
          exact readValue?_array hhead hclose (ihitems hitems (by omega) rest)
      | @object fs cs hfields =>
        rw [List.length_cons, List.length_append, List.length_singleton] at hlength
        rw [List.cons_append, List.append_assoc, List.singleton_append]
        cases fs with
        | nil =>
          cases hfields with
          | none hspace => exact readValue?_object_nil (skipSpace_append hspace)
        | cons f fs =>
          obtain ⟨tail, hhead⟩ := hfields.head ('}' :: rest)
          exact readValue?_object hhead (ihfields hfields (by omega) rest)
    · intro v vs cs hitems hlength rest
      cases hitems with
      | last hbefore hvalue hafter =>
        simp only [List.length_append] at hlength
        rw [List.append_assoc, List.append_assoc, readItems?_congr (skipSpace_append hbefore)]
        exact readItems?_last hafter (ihvalue hvalue (by omega) (stops_after (by simp) hafter rest))
      | more hbefore hvalue hafter hitems =>
        simp only [List.length_append, List.length_cons] at hlength
        simp only [List.append_assoc, List.cons_append]
        rw [readItems?_congr (skipSpace_append hbefore)]
        exact readItems?_more hafter (ihvalue hvalue (by omega) (stops_after (by simp) hafter _))
          (ihitems hitems (by omega) rest)
    · intro f fs cs hfields hlength rest
      cases hfields with
      | last hbefore hgap hvalue hafter =>
        simp only [List.length_append, List.length_cons] at hlength
        simp only [List.append_assoc, List.cons_append]
        exact readFields?_last hbefore hgap hafter
          (ihvalue hvalue (by omega) (stops_after (by simp) hafter rest))
      | more hbefore hgap hvalue hafter hfields =>
        simp only [List.length_append, List.length_cons] at hlength
        simp only [List.append_assoc, List.cons_append]
        exact readFields?_more hbefore hgap hafter
          (ihvalue hvalue (by omega) (stops_after (by simp) hafter _))
          (ihfields hfields (by omega) rest)

/-- A text that holds a written value is read as that value. -/
theorem readChars?_written {v : Json} {cs : List Char} (h : Written v cs) :
    readChars? cs = some v.toRaw := by
  have hend : Stops [] := by rintro _ ⟨⟩
  have hread := (readValue?_written (2 * cs.length + 2)).1 h (by omega) hend
  rw [List.append_nil] at hread
  rw [readChars?]
  exact bind_of hread (bind_of (guard_of rfl) rfl)

end Raw

/-! ## The two written forms -/

mutual

/-- Whether all numbers of a value are whole ones, from -2^63 to 2^64 - 1. -/
def isWhole : Json → Bool
  | .null | .bool _ | .text _ => true
  | .number (.whole n) => -Int.pow 2 63 ≤ n && n < Int.pow 2 64
  | .number (.double _) => false
  | .array items => itemsAreWhole items
  | .object fields => fieldsAreWhole fields

/-- Whether all numbers of values are whole ones. -/
def itemsAreWhole : List Json → Bool
  | [] => true
  | v :: vs => isWhole v && itemsAreWhole vs

/-- Whether all numbers of fields are whole ones. -/
def fieldsAreWhole : List (String × Json) → Bool
  | [] => true
  | (_, v) :: fs => isWhole v && fieldsAreWhole fs

end

theorem itemsAreWhole_iff {vs : List Json} :
    itemsAreWhole vs = true ↔ ∀ v ∈ vs, v.isWhole = true := by
  induction vs with
  | nil => simp [itemsAreWhole]
  | cons v vs ih => simp [itemsAreWhole, ih]

theorem fieldsAreWhole_iff {fs : List (String × Json)} :
    fieldsAreWhole fs = true ↔ ∀ f ∈ fs, f.2.isWhole = true := by
  induction fs with
  | nil => simp [fieldsAreWhole]
  | cons f fs ih => simp [fieldsAreWhole, ih]

theorem spaces_nil : Spaces [] := by rintro _ ⟨⟩

theorem spaces_gap : Spaces [' '] := by simp [Spaces, isSpace]

theorem spaces_newLine (indent : Nat) : Spaces (newLine indent) := by
  intro c hc
  rcases List.mem_cons.mp hc with rfl | hc
  · rfl
  · rw [(List.mem_replicate.mp hc).2]
    rfl

theorem written_number {n : Number} (h : isWhole (.number n) = true) :
    Written (.number n) n.render := by
  cases n with
  | whole n =>
    obtain ⟨hlow, hhigh⟩ := Bool.and_eq_true_iff.mp h
    exact .number (of_decide_eq_true hlow) (of_decide_eq_true hhigh)
  | double d => cases h

mutual

theorem written_compact : (v : Json) → isWhole v = true → Written v (compactChars v)
  | .null, _ => .null
  | .bool b, _ => .bool b
  | .number _, h => written_number h
  | .text s, _ => .text s
  | .array vs, h => .array (writtenItems_compact vs h)
  | .object fs, h => .object (writtenFields_compact fs h)

theorem writtenItems_compact : (vs : List Json) → itemsAreWhole vs = true →
    WrittenItems vs (compactItems vs)
  | [], _ => .none spaces_nil
  | [v], h => by
    have hv := written_compact v (Bool.and_eq_true_iff.mp h).1
    have hlast := WrittenItems.last spaces_nil hv spaces_nil
    rwa [List.nil_append, List.append_nil] at hlast
  | v :: w :: vs, h => by
    have hv := written_compact v (Bool.and_eq_true_iff.mp h).1
    have hvs := writtenItems_compact (w :: vs) (Bool.and_eq_true_iff.mp h).2
    exact WrittenItems.more spaces_nil hv spaces_nil hvs

theorem writtenFields_compact : (fs : List (String × Json)) → fieldsAreWhole fs = true →
    WrittenFields fs (compactFields fs)
  | [], _ => .none spaces_nil
  | [(k, v)], h => by
    have hv := written_compact v (Bool.and_eq_true_iff.mp h).1
    have hlast := WrittenFields.last (k := k) spaces_nil spaces_nil hv spaces_nil
    rwa [List.append_nil] at hlast
  | (k, v) :: f :: fs, h => by
    have hv := written_compact v (Bool.and_eq_true_iff.mp h).1
    have hfs := writtenFields_compact (f :: fs) (Bool.and_eq_true_iff.mp h).2
    exact WrittenFields.more spaces_nil spaces_nil hv spaces_nil hfs

end

mutual

theorem written_pretty (indent : Nat) : (v : Json) → isWhole v = true →
    Written v (prettyChars indent v)
  | .null, _ => .null
  | .bool b, _ => .bool b
  | .number _, h => written_number h
  | .text s, _ => .text s
  | .array [], _ => .array (.none spaces_nil)
  | .array (v :: vs), h => by
    have hitems := writtenItems_pretty indent (indent + 2) (v :: vs) (List.cons_ne_nil v vs) h
    have harray := Written.array hitems
    rwa [List.append_assoc] at harray
  | .object [], _ => .object (.none spaces_nil)
  | .object (f :: fs), h => by
    have hfields := writtenFields_pretty indent (indent + 2) (f :: fs) (List.cons_ne_nil f fs) h
    have hobject := Written.object hfields
    rwa [List.append_assoc] at hobject

/-- The new line ahead of the end belongs to the last value. -/
theorem writtenItems_pretty (outer indent : Nat) : (vs : List Json) → vs ≠ [] →
    itemsAreWhole vs = true → WrittenItems vs (prettyItems indent vs ++ newLine outer)
  | [], hne, _ => absurd rfl hne
  | [v], _, h => by
    have hv := written_pretty indent v (Bool.and_eq_true_iff.mp h).1
    have hlast := WrittenItems.last (spaces_newLine indent) hv (spaces_newLine outer)
    rwa [← List.append_assoc] at hlast
  | v :: w :: vs, _, h => by
    have hv := written_pretty indent v (Bool.and_eq_true_iff.mp h).1
    have hvs := writtenItems_pretty outer indent (w :: vs) (List.cons_ne_nil w vs)
      (Bool.and_eq_true_iff.mp h).2
    have hmore := WrittenItems.more (spaces_newLine indent) hv spaces_nil hvs
    simpa [prettyItems, List.append_assoc] using hmore

theorem writtenFields_pretty (outer indent : Nat) : (fs : List (String × Json)) → fs ≠ [] →
    fieldsAreWhole fs = true → WrittenFields fs (prettyFields indent fs ++ newLine outer)
  | [], hne, _ => absurd rfl hne
  | [(k, v)], _, h => by
    have hv := written_pretty indent v (Bool.and_eq_true_iff.mp h).1
    have hlast := WrittenFields.last (k := k) (spaces_newLine indent) spaces_gap hv
      (spaces_newLine outer)
    simpa [prettyFields, List.append_assoc] using hlast
  | (k, v) :: f :: fs, _, h => by
    have hv := written_pretty indent v (Bool.and_eq_true_iff.mp h).1
    have hfs := writtenFields_pretty outer indent (f :: fs) (List.cons_ne_nil f fs)
      (Bool.and_eq_true_iff.mp h).2
    have hmore := WrittenFields.more (k := k) (spaces_newLine indent) spaces_gap hv spaces_nil hfs
    simpa [prettyFields, List.append_assoc] using hmore

end

/-- What is written of a value on one line is read as that value. -/
theorem read?_compact {v : Json} (h : isWhole v = true) : Raw.read? v.compact = some v.toRaw := by
  rw [Raw.read?, compact, String.toList_ofList]
  exact Raw.readChars?_written (written_compact v h)

/-- What is written of a value over several lines is read as that value. -/
theorem read?_pretty {v : Json} (h : isWhole v = true) : Raw.read? v.pretty = some v.toRaw := by
  rw [Raw.read?, pretty, String.toList_ofList]
  exact Raw.readChars?_written (written_pretty 0 v h)

end Backlog.Json
