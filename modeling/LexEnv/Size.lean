import LexEnv.Heap

/-!
# Sizes and truth

Values that consist of parts have a size. A value counts as true unless it has no parts, is a zero,
`false` or `none`. Scripts may ask for the size of a text, list or dictionary only.
-/

namespace LexEnv.Heap

/-- The number of parts of a value: characters, bytes, items, elements, entries or names. -/
def size? (h : Heap) : Value → Option Nat
  | .text s => some s.length
  | .bytes b => some b.length
  | .sequence _ c => some (h.sequence c).length
  | .set _ c => some (h.set c).size
  | .dict d => some (h.dict d).size
  | .scope c => some (h.scope c).size
  | _ => none

/-- The size of a value that scripts may measure. -/
def scriptSize? (h : Heap) : Value → Option Nat
  | .text s => h.size? (.text s)
  | .sequence .list c => h.size? (.sequence .list c)
  | .dict d => h.size? (.dict d)
  | _ => none

/-- Whether a value counts as true. -/
def truth (h : Heap) : Value → Bool
  | .none => false
  | .bool b => b
  | .int n => n != 0
  | .float x _ => !x.isZero
  | v => h.size? v != some 0

end LexEnv.Heap
