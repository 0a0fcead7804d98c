/-
  Double-precision numbers, exactly.

  A finite double is ± m · 2^q.  There are two ways from a decimal to a double, and both refuse what
  lies beyond the range: `Double.ofDecimal?` rounds once, to the nearest double, ties to even;
  `Double.ofScaled?` rounds the digits, then a power of ten, then their product or quotient, so that
  a decimal with many digits or a far exponent may come to a neighbour of the nearest double.
  Writing gives the fewest digits whose nearest double is the value: for 1, 2, … 17 digits the two
  neighbours of the value on that decimal grid are tried against the interval that rounds to it
  (`Double.shortest`).  All of it is exact arithmetic on natural numbers.
-/

namespace Backlog.Json

/-- A finite double: the sign, and the magnitude mantissa · 2^exponent. -/
structure Double where
  negative : Bool
  mantissa : Nat
  exponent : Int
deriving DecidableEq, Repr

namespace Double

/-! ## Rounding -/

/-- The whole number nearest to num / den, the even one of two. -/
def roundDiv (num den : Nat) : Nat :=
  let q := num / den
  let r := num % den
  if 2 * r < den then q else if den < 2 * r then q + 1 else if q % 2 = 0 then q else q + 1

/-- base ^ e for an exponent of either sign, as a numerator and a denominator. -/
def scale (base : Nat) (e : Int) : Nat × Nat :=
  (base.pow e.toNat, base.pow (-e).toNat)

/-- The mantissa and exponent nearest to num / den, if that is within range. -/
def ofRatio? (num den : Nat) : Option (Nat × Int) :=
  if num = 0 then some (0, 0) else
  let low : Int := num.log2 - den.log2 - 53
  let fits (q : Int) : Bool := num * (scale 2 q).2 < Nat.pow 2 53 * (den * (scale 2 q).1)
  let q := max (if fits low then low else low + 1) (-1074)
  let m := roundDiv (num * (scale 2 q).2) (den * (scale 2 q).1)
  let (m, q) := if m = Nat.pow 2 53 then (Nat.pow 2 52, q + 1) else (m, q)
  if q ≤ 971 then some (m, q) else none

/-- How many decimal digits a number has; none for zero. -/
def decimalLength (n : Nat) : Nat := if n = 0 then 0 else (Nat.toDigits 10 n).length

/-- The double nearest to ± digits · 10^power, if that is within range. -/
def ofDecimal? (negative : Bool) (digits : Nat) (power : Int) : Option Double :=
  if digits = 0 then some ⟨negative, 0, 0⟩
  else
    let size := decimalLength digits + power
    if 400 < size then none
    else if size < -400 then some ⟨negative, 0, 0⟩
    else
      (ofRatio? (digits * (scale 10 power).1) (scale 10 power).2).map
        fun (m, q) => ⟨negative, m, if m = 0 then 0 else q⟩

/-! ## Rounding in steps -/

/-- The mantissa and exponent nearest to the product of two. -/
def multiply? (a b : Nat × Int) : Option (Nat × Int) :=
  let (up, down) := scale 2 (a.2 + b.2)
  ofRatio? (a.1 * b.1 * up) down

/-- The mantissa and exponent nearest to the quotient of two. -/
def divide? (a b : Nat × Int) : Option (Nat × Int) :=
  let (up, down) := scale 2 (a.2 - b.2)
  ofRatio? (a.1 * up) (b.1 * down)

/-- The mantissa and exponent nearest to a power of ten, if that is within range. -/
def tenTo? (e : Nat) : Option (Nat × Int) := ofRatio? (Nat.pow 10 e) 1

/-- A double times a power of ten, if that is within range. Below 10^-308 it takes two divisions,
    and below 10^-616 nothing is left of a number below 2^64. -/
def timesTen? (x : Nat × Int) (power : Int) : Option (Nat × Int) := do
  if x.1 = 0 ∨ power < -616 then return (0, 0)
  else if 308 < power then none
  else if 0 ≤ power then multiply? x (← tenTo? power.toNat)
  else if -308 ≤ power then divide? x (← tenTo? (-power).toNat)
  else divide? (← divide? x (← tenTo? 308)) (← tenTo? (-power - 308).toNat)

/-- The double that ± digits · 10^power comes to in steps, for digits below 2^64. -/
def ofScaled? (negative : Bool) (digits : Nat) (power : Int) : Option Double := do
  let (m, q) ← timesTen? (← ofRatio? digits 1) power
  return ⟨negative, m, if m = 0 then 0 else q⟩

/-! ## The fewest digits that read back -/

/-- The decimal with n digits that reads back as m · 2^q and lies nearest to it, if there is one:
    a whole number and a power of ten. -/
def withDigits? (m : Nat) (q : Int) (n : Nat) : Option (Nat × Int) :=
  -- all magnitudes in units of 2^(q-2): the value is 4m, the interval that rounds to it low..high
  let (up, down) := scale 2 (q - 2)
  let below := if m = Nat.pow 2 52 && q > -1074 then 4 * m - 1 else 4 * m - 2
  let above := 4 * m + 2
  let num := 4 * m * up
  let estimate : Int := decimalLength num - decimalLength down
  let (tenUp, tenDown) := scale 10 estimate
  let width := if num * tenDown < down * tenUp then estimate else estimate + 1
  let power := width - n
  let (tenUp, tenDown) := scale 10 power
  let inside (c : Nat) : Bool :=
    let x := c * tenUp * down
    if m % 2 = 0 then below * up * tenDown ≤ x && x ≤ above * up * tenDown
    else below * up * tenDown < x && x < above * up * tenDown
  let c := num * tenDown / (down * tenUp)
  if inside c then
    if inside (c + 1) then
      let twice := 2 * num * tenDown
      let middle := (2 * c + 1) * tenUp * down
      if twice < middle then some (c, power)
      else if middle < twice then some (c + 1, power)
      else if c % 2 = 0 then some (c, power) else some (c + 1, power)
    else some (c, power)
  else if inside (c + 1) then some (c + 1, power) else none

/-- The decimal with the fewest digits that reads back as m · 2^q. -/
def shortest (m : Nat) (q : Int) : Nat × Int :=
  ((List.range 17).findSome? fun k => withDigits? m q (k + 1)).getD (m, 0)

/-- Digits without zeros at the end, the power of ten made up for them. -/
def stripZeros : Nat → Nat → Int → Nat × Int
  | 0, digits, power => (digits, power)
  | fuel + 1, digits, power =>
    if digits ≠ 0 ∧ digits % 10 = 0 then stripZeros fuel (digits / 10) (power + 1)
    else (digits, power)

/-! ## Written form -/

/-- Digits with a point: positional up to 10^16 and down to 10^-5, with an exponent and its sign
    beyond, and a point or an exponent always. -/
def layout (digits : List Char) (power : Int) : List Char :=
  let length := digits.length
  let point := length + power
  if 0 ≤ power ∧ point ≤ 16 then
    digits ++ List.replicate power.toNat '0' ++ ['.', '0']
  else if 0 < point ∧ point ≤ 16 then
    digits.take point.toNat ++ '.' :: digits.drop point.toNat
  else if -5 < point ∧ point ≤ 0 then
    '0' :: '.' :: (List.replicate (-point).toNat '0' ++ digits)
  else
    let mark := 'e' :: (if 0 < point then ['+'] else []) ++ (toString (point - 1)).toList
    match digits with
    | [d] => d :: mark
    | d :: rest => d :: '.' :: (rest ++ mark)
    | [] => mark

/-- The written form of a double: the fewest digits that read back. -/
def render (d : Double) : List Char :=
  let magnitude :=
    if d.mantissa = 0 then ['0', '.', '0']
    else
      let (digits, power) := shortest d.mantissa d.exponent
      let (digits, power) := stripZeros 20 digits power
      layout (Nat.toDigits 10 digits) power
  if d.negative then '-' :: magnitude else magnitude

/-! ## Examples -/

/-- The written form of the double nearest to ± digits · 10^power. -/
def written? (negative : Bool) (digits : Nat) (power : Int) : Option String :=
  (ofDecimal? negative digits power).map fun d => String.ofList d.render

example : written? false 15 (-1) = some "1.5" := by decide +kernel
example : written? true 0 0 = some "-0.0" := by decide +kernel
example : written? false 5 (-324) = some "5e-324" := by decide +kernel
example : written? false 1 16 = some "1e+16" := by decide +kernel
example : written? false 9007199254740993 0 = some "9007199254740992.0" := by decide +kernel
example : written? false 1 400 = none := by decide +kernel
example : ofScaled? false 25 (-1) = ofDecimal? false 25 (-1) := by decide +kernel
example : (ofScaled? false 1 (-23)).map (fun d => String.ofList d.render)
    = some "1.0000000000000001e-23" := by decide +kernel

end Double

end Backlog.Json
