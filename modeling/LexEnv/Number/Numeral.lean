import LexEnv.Text.Plain

/-!
# Integer numerals

Reading and writing integers in decimal. A numeral is an optional sign and digits with single
underscores between them, with blanks around it; leading zeros are allowed, and the digits may come
from any script. Both directions are limited to numerals of at most `digitLimit` digits.
-/

namespace LexEnv.Number

open Text

/-- The most digits an integer numeral may have, leading zeros counted. -/
def digitLimit : Nat := 4300

/-- Splits a sign off; `true` stands for minus. -/
def splitSign : List Char → Bool × List Char
  | '-' :: s => (true, s)
  | '+' :: s => (false, s)
  | s => (false, s)

/-- An integer from its sign and its magnitude. -/
def signed (negative : Bool) (magnitude : Nat) : Int :=
  if negative then -(magnitude : Int) else magnitude

/-! ## Digits -/

/-- The values of one or more digits with single underscores between them. -/
def readDigits? : List Char → Option (List Nat)
  | [] => none
  | [c] => (digitValue? c).map ([·])
  | c :: '_' :: s => do
    let d ← digitValue? c
    let ds ← readDigits? s
    return d :: ds
  | c :: s => do
    let d ← digitValue? c
    let ds ← readDigits? s
    return d :: ds

/-- The number that digits denote, most significant first. -/
def ofDigits (ds : List Nat) : Nat :=
  ds.foldl (fun n d => 10 * n + d) 0

/-! ## Reading -/

/-- The integer a numeral denotes; `none` when the text is no numeral, or one with too many
digits. -/
def readInt? (text : List Char) : Option Int := do
  let text ← plain? text
  let (negative, body) := splitSign (trim text)
  let digits ← readDigits? body
  if digits.length ≤ digitLimit then some (signed negative (ofDigits digits)) else none

/-! ## Writing -/

/-- The numeral of an integer: the decimal digits of its magnitude, after a minus sign if it is
negative. -/
def writeInt (n : Int) : List Char :=
  let digits := Nat.toDigits 10 n.natAbs
  if n < 0 then '-' :: digits else digits

/-- The integers whose numerals keep to the limit. -/
def Writable (n : Int) : Prop := n.natAbs < Nat.pow 10 digitLimit

instance decidableWritable (n : Int) : Decidable (Writable n) := inferInstanceAs (Decidable (_ < _))

/-- An integer is writable exactly when its magnitude has at most `digitLimit` digits. -/
theorem writable_iff (n : Int) :
    Writable n ↔ (Nat.toDigits 10 n.natAbs).length ≤ digitLimit := by
  rw [Writable, Nat.pow_eq]
  exact (Nat.length_toDigits_le_iff (by decide) (by decide)).symm

-- The bound has too many digits for anybody to unfold it.
attribute [irreducible] Writable decidableWritable

/-- An integer that can be written. -/
abbrev WritableInt := { n : Int // Writable n }

end LexEnv.Number
