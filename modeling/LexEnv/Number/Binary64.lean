/-!
# Binary floating point

The numbers of the 64-bit binary format: signed zeros, finite numbers with a significand of 53 bits,
infinities and the value that is no number. Operations are exact on dyadic rationals and round once,
to the nearest number of the format, ties to an even significand.

Main definitions: `roundRatio` rounds a quotient of naturals, `toDyadic?` is the exact value of a
finite number, and `add`, `mul` and `div` are its arithmetic.
-/

namespace LexEnv.Number

/-- A number of the format. A finite one is `mantissa * 2 ^ exponent`, with
`mantissa < 2 ^ 53`, the exponent between `lowestExponent` and `highestExponent`, and
`2 ^ 52 ≤ mantissa` above the lowest exponent. -/
inductive Binary64 where
  | finite (negative : Bool) (mantissa : Nat) (exponent : Int)
  | infinite (negative : Bool)
  | nan
deriving DecidableEq, Repr

namespace Binary64

/-- The exponent of the numbers closest to zero. -/
def lowestExponent : Int := -1074

/-- The exponent of the numbers of the largest magnitude. -/
def highestExponent : Int := 971

/-- Zero with a sign. -/
def zero (negative : Bool) : Binary64 := .finite negative 0 lowestExponent

/-! ## Rounding -/

/-- The exponent of the largest power of two that does not exceed a positive quotient. -/
def floorLog2 (num den : Nat) : Int :=
  let e : Int := num.log2 - den.log2
  if den * Nat.pow 2 e.toNat ≤ num * Nat.pow 2 (-e).toNat then e else e - 1

/-- The integer nearest to a quotient, the even one of two. -/
def roundHalfEven (num den : Nat) : Nat :=
  let q := num / den
  let r := num % den
  if den < 2 * r ∨ (2 * r = den ∧ q % 2 = 1) then q + 1 else q

/-- A significand of at most 53 bits, or the power of two after those, put in place; beyond the
highest exponent the number is infinite. -/
def ofSignificand (negative : Bool) (m : Nat) (e : Int) : Binary64 :=
  let (m, e) := if m = Nat.pow 2 53 then (Nat.pow 2 52, e + 1) else (m, e)
  if e > highestExponent then .infinite negative else .finite negative m e

/-- The number of the format nearest to a quotient of naturals, with a sign. -/
def roundRatio (negative : Bool) (num den : Nat) : Binary64 :=
  if num = 0 then zero negative
  else
    let e := max lowestExponent (floorLog2 num den - 52)
    let significand := roundHalfEven (num * Nat.pow 2 (-e).toNat) (den * Nat.pow 2 e.toNat)
    ofSignificand negative significand e

/-- The number of the format nearest to an integer. -/
def ofInt (n : Int) : Binary64 := roundRatio (n < 0) n.natAbs 1

/-- The number of the format nearest to a dyadic rational; `negativeZero` is the sign of a zero. -/
def ofDyadic (negativeZero : Bool) : Dyadic → Binary64
  | .zero => zero negativeZero
  | .ofOdd n k _ => roundRatio (n < 0) (n.natAbs * Nat.pow 2 (-k).toNat) (Nat.pow 2 k.toNat)

/-! ## Exact values -/

/-- The exact value of a finite number. -/
def toDyadic? : Binary64 → Option Dyadic
  | .finite negative m e => some (.ofIntWithPrec (if negative then -(m : Int) else m) (-e))
  | .infinite _ => none
  | .nan => none

/-- The integer part of a finite number, rounded toward zero. -/
def truncate? : Binary64 → Option Int
  | .finite negative m e =>
    let magnitude := m * Nat.pow 2 e.toNat / Nat.pow 2 (-e).toNat
    some (if negative then -(magnitude : Int) else magnitude)
  | .infinite _ => none
  | .nan => none

/-- Whether a number is greater than an integer. -/
def exceeds (x : Binary64) (n : Int) : Bool :=
  match x with
  | .finite negative m e =>
    n * Nat.pow 2 (-e).toNat < (if negative then -(m : Int) else m) * Nat.pow 2 e.toNat
  | .infinite negative => !negative
  | .nan => false

/-- Whether a number is a zero of either sign. -/
def isZero : Binary64 → Bool
  | .finite _ m _ => m == 0
  | _ => false

/-- Whether a number is infinite. -/
def isInfinite : Binary64 → Bool
  | .infinite _ => true
  | _ => false

/-! ## Arithmetic -/

/-- The sign of a number; the value that is no number counts as positive. -/
def isNegative : Binary64 → Bool
  | .finite negative _ _ => negative
  | .infinite negative => negative
  | .nan => false

/-- The sum, rounded once. A zero sum is negative only if both summands are. -/
def add (x y : Binary64) : Binary64 :=
  match x, y with
  | .nan, _ | _, .nan => .nan
  | .infinite s, .infinite t => if s = t then .infinite s else .nan
  | .infinite s, _ => .infinite s
  | _, .infinite t => .infinite t
  | x@(.finite s ..), y@(.finite t ..) =>
    ofDyadic (s && t) (x.toDyadic?.getD 0 + y.toDyadic?.getD 0)

/-- The product, rounded once. -/
def mul (x y : Binary64) : Binary64 :=
  let negative := x.isNegative != y.isNegative
  match x, y with
  | .nan, _ | _, .nan => .nan
  | .finite _ m d, .finite _ n e =>
    roundRatio negative (m * n * Nat.pow 2 (d + e).toNat) (Nat.pow 2 (-(d + e)).toNat)
  | x, y => if x.isZero || y.isZero then .nan else .infinite negative

/-- The quotient, rounded once. What is not zero is infinite when divided by zero. -/
def div (x y : Binary64) : Binary64 :=
  let negative := x.isNegative != y.isNegative
  match x, y with
  | .nan, _ | _, .nan => .nan
  | .infinite _, .infinite _ => .nan
  | .infinite _, _ => .infinite negative
  | _, .infinite _ => zero negative
  | .finite _ m d, .finite _ n e =>
    if n = 0 then if m = 0 then .nan else .infinite negative
    else roundRatio negative (m * Nat.pow 2 (d - e).toNat) (n * Nat.pow 2 (e - d).toNat)

end Binary64

end LexEnv.Number
