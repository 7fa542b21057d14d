import LexEnv.Text.Blank
import LexEnv.Text.Digit

/-!
# Plain text of a numeral

Numerals are read from plain ASCII text. A text with wider characters is made plain first: a blank
becomes a space, a decimal digit of any script becomes the ASCII digit of the same value, and any
other character outside ASCII makes the text unreadable as a numeral.
-/

namespace LexEnv.Text

/-- The plain form of one character, if it has one. -/
def plainChar? (c : Char) : Option Char :=
  if c.toNat < 0x80 then some c
  else if isWideBlank c then some ' '
  else (wideDigitValue? c).map Nat.digitChar

/-- The plain form of a text: that of each character, in order. -/
def plain? : List Char → Option (List Char)
  | [] => some []
  | c :: s => do
    let c ← plainChar? c
    let s ← plain? s
    return c :: s

/-- An ASCII character is its own plain form. -/
theorem plainChar?_ascii {c : Char} (h : c.toNat < 0x80) : plainChar? c = some c := if_pos h

/-- Making plain works character by character. -/
theorem plain?_append (s t : List Char) :
    plain? (s ++ t) = (plain? s).bind fun s' => (plain? t).map (s' ++ ·) := by
  induction s with
  | nil => simp [plain?]
  | cons c s ih =>
    simp only [List.cons_append, plain?, ih]
    cases plainChar? c with
    | none => rfl
    | some d => cases plain? s <;> cases plain? t <;> rfl

end LexEnv.Text
