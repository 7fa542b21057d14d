import LexEnv.Heap

/-!
# Names of types

Every value has the name of its own type, which messages about missing attributes and misfit
operands use. Scripts see friendlier names for the values they can write; other values keep the name
of their own type.
-/

namespace LexEnv

/-- The name of a kind of slot. -/
def SlotKind.typeName : SlotKind → String
  | .mutable => "Slot"
  | .constant => "ConstSlot"
  | .bare => "BaseSlot"

/-- The name of a kind of sequence. -/
def SequenceKind.typeName : SequenceKind → String
  | .list => "list"
  | .tuple => "tuple"

/-- The name of a kind of set. -/
def SetKind.typeName : SetKind → String
  | .changing => "set"
  | .frozen => "frozenset"

namespace Heap

/-- The name of a value's own type. -/
def typeName (h : Heap) : Value → String
  | .none => "NoneType"
  | .bool _ => "bool"
  | .int _ => "int"
  | .float _ _ => "float"
  | .text _ => "str"
  | .bytes _ => "bytes"
  | .sequence kind _ => kind.typeName
  | .set kind _ => kind.typeName
  | .dict _ => "dict"
  | .func _ => "Func"
  | .cls _ => "Class"
  | .slot s => (h.slot s).kind.typeName
  | .scope _ => "Scope"
  | .stack _ => "ScopeStack"
  | .arguments _ => "Args"
  | .context _ => "EvalContext"

/-- The name under which scripts know a value's type. -/
def scriptType (h : Heap) : Value → String
  | .none => "none"
  | .bool _ => "boolean"
  | .int _ => "integer"
  | .float _ _ => "float"
  | .text _ => "string"
  | .sequence .list _ => "array"
  | .dict _ => "dictionary"
  | .func _ => "function"
  | .cls _ => "class"
  | v => h.typeName v

end Heap

end LexEnv
