import LexEnv.Number.Binary64
import LexEnv.Number.Numeral

/-!
# Decimal numerals of floating point numbers

Reads a decimal numeral and rounds its exact value once: an optional sign, then a word for an
infinity or for no number in any case of letters, or digits with an optional point and an optional
exponent. Underscores may stand between digits, blanks around the numeral.
-/

namespace LexEnv.Number

open Text

/-- Removes the underscores of a numeral; each has to stand between two digits. -/
def dropUnderscores? : List Char → Option (List Char)
  | [] => some []
  | [c] => if c = '_' then none else some [c]
  | c :: d :: s =>
    if c = '_' then none
    else if d = '_' then
      match s with
      | [] => none
      | e :: _ =>
        if c.isDigit && e.isDigit then (dropUnderscores? s).map (c :: ·) else none
    else (dropUnderscores? (d :: s)).map (c :: ·)

/-- A magnitude as it is written: digits without leading zeros, times a power of ten. -/
structure Scientific where
  digits : List Char
  exponent : Int

/-- The exponent after its letter: an optional sign and digits. -/
def readExponent? (s : List Char) : Option Int :=
  let (negative, digits) := splitSign s
  if digits.isEmpty || !digits.all Char.isDigit then none
  else some (signed negative (Nat.ofDigitChars 10 digits 0))

/-- A decimal magnitude: digits, an optional point among or around them, an optional exponent. -/
def readScientific? (s : List Char) : Option Scientific := do
  let whole := s.takeWhile Char.isDigit
  let s := s.dropWhile Char.isDigit
  let (fraction, s) := match s with
    | '.' :: s => (s.takeWhile Char.isDigit, s.dropWhile Char.isDigit)
    | s => ([], s)
  if whole.isEmpty && fraction.isEmpty then none
  else
    let exponent ← match s with
      | [] => some 0
      | c :: s => if c = 'e' || c = 'E' then readExponent? s else none
    return ⟨(whole ++ fraction).dropWhile (· == '0'), exponent - fraction.length⟩

/-- The number of the format nearest to a decimal magnitude. Magnitudes that are far out of range
are settled by their number of digits, before any power is formed. -/
def Scientific.round (negative : Bool) (x : Scientific) : Binary64 :=
  let top : Int := x.digits.length + x.exponent
  if x.digits.isEmpty then .zero negative
  else if top < -400 then .zero negative
  else if 400 < top then .infinite negative
  else
    let coefficient := Nat.ofDigitChars 10 x.digits 0
    .roundRatio negative (coefficient * Nat.pow 10 x.exponent.toNat)
      (Nat.pow 10 (-x.exponent).toNat)

/-- The number a plain numeral without blanks denotes. -/
def readUnsigned? (negative : Bool) (s : List Char) : Option Binary64 :=
  let word := String.ofList (s.map Char.toLower)
  if word = "inf" || word = "infinity" then some (.infinite negative)
  else if word = "nan" then some .nan
  else do
    let s ← dropUnderscores? s
    let x ← readScientific? s
    return x.round negative

/-- The floating point number a numeral denotes. -/
def readFloat? (text : List Char) : Option Binary64 := do
  let text ← plain? text
  let (negative, body) := splitSign (trim text)
  readUnsigned? negative body

end LexEnv.Number
