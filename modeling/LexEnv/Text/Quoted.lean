import LexEnv.Text.Printable

/-!
# Quoted text

A text or a byte string is shown between quotation marks, so that it can be told apart from other
values. Single marks are used unless the content holds a single mark and no double one. Inside, the
mark in use and the backslash are escaped, line feed, carriage return and tab have short escapes,
and what is not printable is written by its code point with two, four or eight hexadecimal digits.
-/

namespace LexEnv.Text

/-- The last `width` hexadecimal digits of a number, most significant first. -/
def hexDigits : (width : Nat) → Nat → List Char
  | 0, _ => []
  | width + 1, n => hexDigits width (n / 16) ++ [(n % 16).digitChar]

/-- The mark around a content: double exactly when the content holds a single mark and no double
one. -/
def quoteMark (content : List Char) : Char :=
  if content.contains '\'' && !content.contains '"' then '"' else '\''

/-- The escape by code point, in the shortest of its three widths. -/
def escapeCode (n : Nat) : List Char :=
  if n < 0x100 then '\\' :: 'x' :: hexDigits 2 n
  else if n < 0x10000 then '\\' :: 'u' :: hexDigits 4 n
  else '\\' :: 'U' :: hexDigits 8 n

/-- One character of the content between marks; `shown` says which are written as themselves. -/
def escapeChar (shown : Char → Bool) (mark c : Char) : List Char :=
  if c == mark || c == '\\' then ['\\', c]
  else if c == '\n' then ['\\', 'n']
  else if c == '\r' then ['\\', 'r']
  else if c == '\t' then ['\\', 't']
  else if shown c then [c]
  else escapeCode c.toNat

/-- A content between marks. -/
def quoteWith (shown : Char → Bool) (content : List Char) : List Char :=
  let mark := quoteMark content
  mark :: content.flatMap (escapeChar shown mark) ++ [mark]

/-- A text in quotation marks. -/
def quote (s : String) : String :=
  String.ofList (quoteWith isPrintable s.toList)

/-- A byte string in quotation marks, after the letter `b`; only graphic ASCII is shown as it is. -/
def quoteBytes (bytes : List UInt8) : String :=
  let content := bytes.map fun b => Char.ofNat b.toNat
  String.ofList ('b' :: quoteWith (fun c => 0x20 ≤ c.toNat && c.toNat ≤ 0x7E) content)

end LexEnv.Text
