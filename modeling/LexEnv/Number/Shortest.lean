import LexEnv.Number.Binary64

/-!
# The shortest decimal of a floating point number

Writes a number with the fewest significant digits that read back as the same number, and of those
the nearest, an even last digit deciding between two equally near ones. The layout is positional
between two bounds on the decimal exponent and scientific beyond them; `Layout` holds these choices.

The digits are found by trying the decimal grids of 1, 2, … 17 digits: if any point of a grid reads
back as the number, so does one of the two points next to the number itself.
-/

namespace LexEnv.Number

/-- A decimal fraction `0.d₁d₂… * 10 ^ point`. -/
structure Decimal where
  digits : List Char
  point : Int

/-! ## Digits -/

/-- The exponent of the largest power of ten that does not exceed a positive quotient. -/
def floorLog10 (num den : Nat) : Int :=
  if den ≤ num then (Nat.toDigits 10 (num / den)).length - 1
  else
    let width := (Nat.toDigits 10 (den / num)).length
    if den ≤ num * Nat.pow 10 (width - 1) then 1 - (width : Int) else -(width : Int)

/-- Whether a point `c * 10 ^ p` of a decimal grid rounds to the positive number `m * 2 ^ e`: it
lies between the middles towards the two neighbours, ends included for an even significand. -/
def readsBack (m : Nat) (e : Int) (c : Nat) (p : Int) : Bool :=
  let below := if m = Nat.pow 2 52 ∧ e ≠ Binary64.lowestExponent then 1 else 2
  let unit := Nat.pow 2 (e - 2).toNat * Nat.pow 10 (-p).toNat
  let point := c * Nat.pow 10 p.toNat * Nat.pow 2 (2 - e).toNat
  let low := (4 * m - below) * unit
  let high := (4 * m + 2) * unit
  if m % 2 = 0 then low ≤ point && point ≤ high else low < point && point < high

/-- The point of the grid `10 ^ p` that reads back as the number and is nearest to it, if any. -/
def onGrid? (m : Nat) (e : Int) (p : Int) : Option Nat :=
  let num := m * Nat.pow 2 e.toNat * Nat.pow 10 (-p).toNat
  let den := Nat.pow 2 (-e).toNat * Nat.pow 10 p.toNat
  let nearest := Binary64.roundHalfEven num den
  let floor := num / den
  let other := if nearest = floor then floor + 1 else floor
  if readsBack m e nearest p then some nearest
  else if readsBack m e other p then some other
  else none

/-- The shortest decimal of the positive number `m * 2 ^ e`. -/
def shortest (m : Nat) (e : Int) : Decimal :=
  let top := floorLog10 (m * Nat.pow 2 e.toNat) (Nat.pow 2 (-e).toNat)
  let grids := (List.range 17).map fun (n : Nat) => top - n
  let (c, p) := (grids.findSome? fun p => (onGrid? m e p).map (·, p)).getD (0, 0)
  let digits := Nat.toDigits 10 c
  ⟨(digits.reverse.dropWhile (· == '0')).reverse, digits.length + p⟩

/-! ## Layout -/

/-- How a decimal is laid out. -/
structure Layout where
  /-- The least decimal exponent written positionally. -/
  lowestPositional : Int
  /-- The least decimal exponent from which on the layout is scientific. -/
  firstScientific : Int
  /-- The least number of digits of a scientific exponent. -/
  exponentWidth : Nat

/-- Numbers from 0.0001 up to 10^16 are positional, and an exponent has two digits at least. -/
def Layout.standard : Layout := ⟨-4, 16, 2⟩

/-- A decimal with its point in place, and at least one digit on each side of it. -/
def Decimal.positional (x : Decimal) : List Char :=
  if x.point ≤ 0 then '0' :: '.' :: List.replicate (-x.point).toNat '0' ++ x.digits
  else
    let n := x.point.toNat
    let whole := x.digits.take n ++ List.replicate (n - x.digits.length) '0'
    let fraction := x.digits.drop n
    whole ++ '.' :: (if fraction.isEmpty then ['0'] else fraction)

/-- A decimal with one digit before the point and its exponent. -/
def Decimal.scientific (width : Nat) (x : Decimal) : List Char :=
  let exponent := x.point - 1
  let shown := Nat.toDigits 10 exponent.natAbs
  let fraction := x.digits.drop 1
  x.digits.take 1 ++ (if fraction.isEmpty then [] else '.' :: fraction)
    ++ 'e' :: (if exponent < 0 then '-' else '+')
      :: List.replicate (width - shown.length) '0' ++ shown

/-- A decimal in the layout that its exponent asks for. -/
def Decimal.write (layout : Layout) (x : Decimal) : List Char :=
  let exponent := x.point - 1
  if layout.lowestPositional ≤ exponent && exponent < layout.firstScientific then x.positional
  else x.scientific layout.exponentWidth

/-- The text of a floating point number. -/
def Binary64.write : Binary64 → String
  | .nan => "nan"
  | .infinite negative => if negative then "-inf" else "inf"
  | .finite negative m e =>
    let magnitude := if m = 0 then "0.0" else String.ofList ((shortest m e).write .standard)
    if negative then "-" ++ magnitude else magnitude

end LexEnv.Number
