import LexEnv.Stack

/-!
# Access by a common word

Several types have an operation of the same name: dictionaries, slots and stacks can all be asked
for what they hold, scopes and containers can all be searched and copied, and dictionaries, sets and
slots can all be updated. Which operation is meant depends on the value. A value without the
operation says so; one whose operation takes other operands refuses those that it got, and counts
itself among them.

Names are texts here, so a table is asked and written like a plain list of entries
(`Table.find?_text`, `Table.put_text`).
-/

namespace LexEnv.Value

/-- Fails because a value has no operation of that name. -/
def lacking {α : Type} (v : Value) (operation : String) : Action α := do
  Action.fail (.missingAttribute (← Action.read (·.typeName v)) operation)

/-- Fails because a value got more operands than it takes. -/
def overloaded {α : Type} (operation : String) (takes given : Nat) : Action α :=
  Action.fail (.typing (.tooManyOperands operation takes given))

/-! ## Reading -/

/-- What a value holds, asked for without a name. -/
def content : Value → Action Value
  | .slot s => s.get
  | .stack _ => Action.fail (.typing (.missingOperand "ScopeStack.get" "name"))
  | .dict _ => Action.fail (.typing .nothingToFind)
  | v => v.lacking "get"

/-- What a value has under a name; a dictionary without an entry has `none`. -/
def entry (v : Value) (name : String) : Action Value :=
  match v with
  | .dict d => Action.read fun h => ((h.dict d).get? name).getD .none
  | .slot _ => overloaded "BaseSlot.get" 1 2
  | .stack s => s.get (.text name)
  | v => v.lacking "get"

/-- What a value has under a name, for a caller that brings a substitute along. -/
def entry? (v : Value) (name : String) : Action (Option Value) :=
  match v with
  | .dict d => Action.read fun h => (h.dict d).get? name
  | .slot _ => overloaded "BaseSlot.get" 1 3
  | .stack _ => overloaded "ScopeStack.get" 2 3
  | v => v.lacking "get"

/-- Whether a text occurs in another one. -/
def occursIn (s : List Char) : List Char → Bool
  | [] => s.isEmpty
  | c :: t => s.isPrefixOf (c :: t) || occursIn s t

/-- Whether a name is in a value: bound by a scope, a key or an item of a container, or a part of a
text. -/
def hasName (v : Value) (name : String) : Action Bool :=
  match v with
  | .scope c => do return (← c.lookup (.text name)).isSome
  | .dict d => Action.read fun h => ((h.dict d).get? name).isSome
  | .set _ c => Action.read fun h => ((h.set c).get? name).isSome
  | .sequence _ c => Action.read fun h => decide (.text name ∈ h.sequence c)
  | .text s => return occursIn name.toList s.toList
  | .bytes _ => Action.fail (.typing (.bytesNeeded "str"))
  | v => do Action.fail (.typing (.notSearchable (← Action.read (·.typeName v))))

/-- A new object with the same parts. A frozen set serves as its own copy. -/
def copy : Value → Action Value
  | .scope c => do return .scope (← c.copy)
  | .sequence .list c => do newList (← Action.read (·.sequence c))
  | .set .changing c => do newSet .changing (← Action.read (·.set c))
  | .set .frozen c => return .set .frozen c
  | .dict d => do newDict (← Action.read (·.dict d))
  | v => v.lacking "copy"

/-! ## Writing -/

/-- Puts something into a value as its entry of a name. -/
def setEntry (v : Value) (name : String) (content : Value) : Action Unit :=
  match v with
  | .dict d => Action.modifyHeap fun h => h.setDict d ((h.dict d).insert name content)
  | .sequence .list _ => Action.fail (.typing .namedListItem)
  | v => do Action.fail (.typing (.fixedItems (← Action.read (·.typeName v))))

/-- What a dictionary has under a name; if it has nothing there, it gets an empty dictionary. -/
def entryOrNew (v : Value) (name : String) : Action Value :=
  match v with
  | .dict d => do
    match ← Action.read fun h => (h.dict d).get? name with
    | some content => return content
    | Option.none =>
      let fresh ← newDict .empty
      v.setEntry name fresh
      return fresh
  | v => v.lacking "setdefault"

/-- Takes named entries into a value: a dictionary puts them over its own, a set adds their names. A
slot would call them as a function, and a constant one does not get that far. -/
def absorb (v : Value) (named : List (String × Value)) : Action Unit :=
  match v with
  | .dict d => Action.modifyHeap fun h => h.setDict d ((h.dict d).insertAll named)
  | .set .changing c =>
    let names := named.map fun (name, _) => (name, ())
    Action.modifyHeap fun h => h.setSet c ((h.set c).insertAll names)
  | .slot s => do
    let _ ← s.update fun _ => Action.fail (.typing (.notCallable "dict"))
  | v => v.lacking "update"

end LexEnv.Value
