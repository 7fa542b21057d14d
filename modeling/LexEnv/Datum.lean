import LexEnv.Heap

/-!
# Data

A datum is the picture of a value at one moment: a tree in which the objects that the value holds
stand in place of their identifiers. Reports show values through this picture; `Snapshot.lean` takes
it.

An object that occurs inside itself would make the tree infinite; the inner occurrence is cut off.
-/

namespace LexEnv

/-- The picture of a value. -/
inductive Datum where
  | none
  | bool (b : Bool)
  | int (n : Int)
  | float (x : Number.Binary64)
  | text (s : String)
  | bytes (b : List UInt8)
  | sequence (kind : SequenceKind) (items : List Datum)
  | set (kind : SetKind) (elements : List Datum)
  | dict (entries : List (Datum × Datum))
  | func (name : String)
  | cls (name : String)
  | slot (kind : SlotKind) (content : Datum)
  /-- The names of a scope in ascending order, each with the kind and content of its slot. -/
  | scope (bindings : List (Datum × SlotKind × Datum))
  /-- An object that is shown by its type only. -/
  | object (type : String)
  /-- An object inside itself. -/
  | again

instance : Inhabited Datum := ⟨.none⟩

end LexEnv
