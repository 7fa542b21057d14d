import LexEnv.Native
import LexEnv.Number.Binary64

/-!
# Values

The values that slots hold. Numbers, text and bytes are held as they are; everything that can be
shared or change is held by its identifier in the heap (`Heap.lean`), so that equality of `Value` is
identity of objects. Floating point numbers, functions and classes carry a serial number: it tells
apart objects that can only be told apart by identity, and is 0 where identity never shows.
-/

namespace LexEnv

/-! ## Identifiers -/

/-- Identifies a list or tuple. -/
structure SequenceId where
  index : Nat
deriving DecidableEq, Repr

/-- Identifies a set. -/
structure SetId where
  index : Nat
deriving DecidableEq, Repr

/-- Identifies a dictionary. -/
structure DictId where
  index : Nat
deriving DecidableEq, Repr

/-- Identifies a slot. -/
@[ext] structure SlotId where
  index : Nat
deriving DecidableEq, Repr

/-- Identifies a scope. -/
@[ext] structure ScopeId where
  index : Nat
deriving DecidableEq, Repr

/-- Identifies a stack of scopes. -/
@[ext] structure StackId where
  index : Nat
deriving DecidableEq, Repr

/-- Identifies the arguments of a call. -/
structure ArgumentsId where
  index : Nat
deriving DecidableEq, Repr

/-- Identifies a context of evaluation. -/
structure ContextId where
  index : Nat
deriving DecidableEq, Repr

/-! ## Values -/

/-- The kinds of sequences. -/
inductive SequenceKind where
  | list | tuple
deriving DecidableEq, Repr

/-- The kinds of sets: those that can change and those that cannot. -/
inductive SetKind where
  | changing | frozen
deriving DecidableEq, Repr

/-- A named native function as a value. -/
structure Func where
  name : String
  native : Native
  serial : Nat
deriving DecidableEq, Repr

/-- A named class as a value. -/
structure Class where
  name : String
  template : Template
  serial : Nat
deriving DecidableEq, Repr

/-- A value. -/
inductive Value where
  | none
  | bool (b : Bool)
  | int (n : Int)
  | float (x : Number.Binary64) (serial : Nat)
  | text (s : String)
  | bytes (b : List UInt8)
  | sequence (kind : SequenceKind) (id : SequenceId)
  | set (kind : SetKind) (id : SetId)
  | dict (id : DictId)
  | func (f : Func)
  | cls (c : Class)
  | slot (id : SlotId)
  | scope (id : ScopeId)
  | stack (id : StackId)
  | arguments (id : ArgumentsId)
  | context (id : ContextId)
deriving DecidableEq, Repr

instance : Inhabited Value := ⟨.none⟩

end LexEnv
