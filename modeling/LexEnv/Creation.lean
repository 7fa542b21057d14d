import LexEnv.Action
import LexEnv.Hash

/-!
# New values

Values of an identity of their own: sequences, sets and dictionaries, functions and classes, and the
value that is no number. The elements of a set and the keys of a dictionary need a hash when they go
in.
-/

namespace LexEnv.Value

/-! ## Containers -/

/-- A new sequence. -/
def newSequence (kind : SequenceKind) (items : List Value) : Action Value := do
  return .sequence kind (← Action.allocate (·.addSequence items))

/-- A new list. -/
def newList (items : List Value) : Action Value := newSequence .list items

/-- A new tuple. -/
def newTuple (items : List Value) : Action Value := newSequence .tuple items

/-- A new set. -/
def newSet (kind : SetKind) (elements : Table Unit) : Action Value := do
  return .set kind (← Action.allocate (·.addSet elements))

/-- A new dictionary. -/
def newDict (entries : Table Value) : Action Value := do
  return .dict (← Action.allocate (·.addDict entries))

/-- A new dictionary with named entries. -/
def newNamedDict (entries : List (String × Value)) : Action Value := newDict (.ofList entries)

/-- Puts something under a key of a table. -/
def putIn {α : Type} (t : Table α) (key : Value) (a : α) : Action (Table α) :=
  Action.inspect fun h => do h.put (← h.key key) a t

/-! ## Single values -/

/-- A number as a value; one that is no number gets an identity of its own. -/
def newFloat (x : Number.Binary64) : Action Value :=
  match x with
  | .nan => do return .float .nan (← Action.allocate (·.addSerial))
  | x => pure (.float x 0)

/-- A function value of its own identity. -/
def newFunc (name : String) (native : Native) : Action Value := do
  return .func ⟨name, native, ← Action.allocate (·.addSerial)⟩

/-- A class value of its own identity; the type has to be one that can be constructed and set. -/
def newClass (name : String) (type : HostType) : Action Value :=
  match type.template? with
  | some template => do return .cls ⟨name, template, ← Action.allocate (·.addSerial)⟩
  | Option.none => Action.fail (.typing (.incompleteClass name))

end LexEnv.Value
