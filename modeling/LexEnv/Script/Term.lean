import LexEnv.Arithmetic
import LexEnv.Library

/-!
# Terms

How a script writes values down: literals, a few ways to write large ones, values of a fresh
library, and handles, which stand for objects that the script kept earlier. Evaluating a term
creates the objects it describes.
-/

namespace LexEnv

/-- Fetches the object kept under a handle. -/
def Action.handle (name : String) : Action Value := do
  match (← state).handles.get? name with
  | some v => return v
  | none => fail (.unknownHandle name)

/-- Keeps an object under a handle. -/
def Action.keep (name : String) (v : Value) : Action Unit := fun s =>
  (.ok (), { s with handles := s.handles.insert name v })

namespace Script

/-- A written value. -/
inductive Term where
  | none
  | bool (b : Bool)
  | int (n : Int)
  /-- A floating point number by its numeral. -/
  | float (numeral : String)
  | text (s : String)
  | bytes (b : List UInt8)
  | sequence (kind : SequenceKind) (items : List Term)
  | set (kind : SetKind) (elements : List Term)
  | dict (entries : List (Term × Term))
  /-- `base ^ exponent + offset`. -/
  | power (base : Int) (exponent : Nat) (offset : Int)
  /-- A text repeated a number of times. -/
  | repeated (s : String) (n : Nat)
  /-- A value inside so many one-element lists. -/
  | nested (t : Term) (n : Nat)
  /-- What a fresh library binds a name to. -/
  | library (name : String)
  | handle (name : String)

instance : Inhabited Term := ⟨.none⟩

/-- Wraps a value into so many one-element lists. -/
def nest (v : Value) : Nat → Action Value
  | 0 => pure v
  | n + 1 => do Value.newList [← nest v n]

mutual

/-- Creates the value that a term describes. -/
def Term.eval : Term → Action Value
  | .none => pure .none
  | .bool b => pure (.bool b)
  | .int n => pure (.int n)
  | .float numeral =>
    match Number.readFloat? numeral.toList with
    | some x => Value.newFloat x
    | Option.none => Action.fail (.eval (.notConvertible "string" "float"))
  | .text s => pure (.text s)
  | .bytes b => pure (.bytes b)
  | .sequence kind items => do Value.newSequence kind (← Term.evalItems items)
  | .set kind elements => do Value.newSet kind (← Term.evalElements .empty elements)
  | .dict pairs => do Value.newDict (← Term.evalPairs .empty pairs)
  | .power base exponent offset => pure (.int (base ^ exponent + offset))
  | .repeated s n => pure (.text (String.ofList (Value.repeated n s.toList)))
  | .nested t n => do nest (← t.eval) n
  | .library name => do
    match ← (← ScopeId.newLibrary).lookup (.text name) with
    | some slot => slot.get
    | Option.none => Action.fail (.undefinedName name)
  | .handle name => Action.handle name

/-- Creates the values of several terms in order. -/
def Term.evalItems : List Term → Action (List Value)
  | [] => pure []
  | t :: ts => do
    let v ← t.eval
    let vs ← Term.evalItems ts
    return v :: vs

/-- Creates the values of several terms in order and adds them to the elements of a set. -/
def Term.evalElements (elements : Table Unit) : List Term → Action (Table Unit)
  | [] => pure elements
  | t :: ts => do
    let elements ← Value.putIn elements (← t.eval) ()
    Term.evalElements elements ts

/-- Creates the keys and values of several pairs in order and puts them into the entries of a
dictionary. -/
def Term.evalPairs (entries : Table Value) : List (Term × Term) → Action (Table Value)
  | [] => pure entries
  | (k, v) :: ps => do
    let k ← k.eval
    let v ← v.eval
    let entries ← Value.putIn entries k v
    Term.evalPairs entries ps

end

/-- Creates the values of named terms in order. -/
def evalNamed (named : List (String × Term)) : Action (List (String × Value)) :=
  named.mapM fun (name, t) => do return (name, ← t.eval)

end Script

end LexEnv
