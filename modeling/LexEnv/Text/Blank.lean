/-!
# Blank characters

Numerals may be surrounded by blank characters. Two classes matter: the six plain blanks, which
are skipped around a numeral, and the blanks outside ASCII, each of which reads as a plain space
(`Text/Plain.lean`). The separators U+001C to U+001F belong to neither class.
-/

namespace LexEnv.Text

/-- The plain blanks: tab, line feed, vertical tab, form feed, carriage return and space. -/
def isPlainBlank (c : Char) : Bool :=
  c == ' ' || (0x09 ≤ c.toNat && c.toNat ≤ 0x0D)

/-- The blank characters outside ASCII: next line and the Unicode space separators. -/
def isWideBlank (c : Char) : Bool :=
  let n := c.toNat
  n == 0x85 || n == 0xA0 || n == 0x1680 || (0x2000 ≤ n && n ≤ 0x200A) || n == 0x2028
    || n == 0x2029 || n == 0x202F || n == 0x205F || n == 0x3000

/-- A blank outside ASCII lies outside ASCII. -/
theorem le_toNat_of_isWideBlank {c : Char} (h : isWideBlank c = true) : 0x80 ≤ c.toNat := by
  simp only [isWideBlank, Bool.or_eq_true, Bool.and_eq_true, beq_iff_eq, decide_eq_true_eq] at h
  omega

/-- Drops the plain blanks at both ends. -/
def trim (s : List Char) : List Char :=
  ((s.dropWhile isPlainBlank).reverse.dropWhile isPlainBlank).reverse

end LexEnv.Text
