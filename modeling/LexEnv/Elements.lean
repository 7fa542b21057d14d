import LexEnv.Scope

/-!
# Elements of values

Values that can be gone through one element after the other, and the dictionaries that can be made
of them: each element has to have two parts then, of which the first becomes the key.
-/

namespace LexEnv.Value

/-- The elements of a value, if it has any: the characters of a text, the numbers of bytes, the
items of a sequence, the elements of a set, the keys of a dictionary, and the names of a scope in
pairs with their slots. -/
def elements? : Value → Action (Option (List Value))
  | .text s => return some (s.toList.map fun c => .text c.toString)
  | .bytes b => return some (b.map fun x => .int x.toNat)
  | .sequence _ c => Action.read fun h => some (h.sequence c)
  | .set _ c => Action.read fun h => some (h.set c).keyValues
  | .dict d => Action.read fun h => some (h.dict d).keyValues
  | .scope c => do
    return some (← (← c.enumerate).mapM fun (name, s) => newTuple [name, .slot s])
  | _ => return Option.none

/-- The elements of a value that has to have some. -/
def elements (v : Value) : Action (List Value) := do
  match ← v.elements? with
  | some vs => return vs
  | Option.none => Action.fail (.typing (.notIterable (← Action.read (·.typeName v))))

/-- The two parts of an element that stands at some place among the entries of a dictionary. -/
def entryParts (index : Nat) (element : Value) : Action (Value × Value) := do
  match ← element.elements?.attempt with
  | .ok (some [key, content]) => return (key, content)
  | .ok (some parts) => Action.fail (.entryLength index parts.length)
  | .ok Option.none | .error (.typing _) => Action.fail (.typing (.notEntry index))
  | .error e => Action.fail e

/-- The entries of a dictionary made of a value: those that it has, or its elements as entries. -/
def toEntries : Value → Action (Table Value)
  | .dict d => Action.read (·.dict d)
  | v => do
    (← v.elements).zipIdx.foldlM (fun entries (element, index) => do
      let (key, content) ← element.entryParts index
      putIn entries key content) .empty

end LexEnv.Value
