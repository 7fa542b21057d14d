import LexEnv.Action
import LexEnv.Entries

/-!
# Arguments

The arguments of a call are consumed as they are read: positional ones from the front, named ones by
name. What is left when the call is over was not expected, and `finish` reports it: a positional
argument first, otherwise the first named one.

Each reading is a function of the unread arguments (`Arguments.eat?`, `Arguments.takeNamed`); the
operations on identifiers only fetch and store.
-/

namespace LexEnv

namespace Arguments

/-- The first positional argument and what remains. -/
def eat? (a : Arguments) : Option (Value × Arguments) :=
  match a.positional with
  | [] => none
  | v :: rest => some (v, { a with positional := rest })

/-- The argument of a name, if it is there, and what remains. -/
def takeNamed (a : Arguments) (name : String) : Option Value × Arguments :=
  (Entries.find? name a.named, { a with named := Entries.erase name a.named })

/-- What is wrong when no more arguments are going to be read. -/
def leftover? (a : Arguments) : Option EvalFault :=
  match a.positional, a.named with
  | _ :: _, _ => some .unexpectedPositional
  | [], (name, _) :: _ => some (.unexpectedNamed name)
  | [], [] => none

/-- Nothing is wrong exactly when everything was read. -/
theorem leftover?_eq_none_iff {a : Arguments} :
    a.leftover? = none ↔ a.positional = [] ∧ a.named = [] := by
  obtain ⟨positional, named⟩ := a
  cases positional <;> cases named <;> simp [leftover?]

end Arguments

namespace ArgumentsId

/-- New arguments; a repeated name keeps its first place and takes its last value. -/
def create (positional : List Value) (named : List (String × Value)) : Action ArgumentsId :=
  Action.allocate (·.addArguments ⟨positional, Entries.ofList named⟩)

/-- The unread arguments. -/
def view (a : ArgumentsId) : Action Arguments := Action.read (·.args a)

/-- Replaces the unread arguments. -/
def store (a : ArgumentsId) (x : Arguments) : Action Unit := Action.modifyHeap (·.setArguments a x)

/-- Reads the next positional argument, or `none` when there is no more. -/
def eat (a : ArgumentsId) : Action Value := do
  match (← a.view).eat? with
  | some (v, rest) =>
    a.store rest
    return v
  | none => return .none

/-- Reads the next positional argument, which has to be there. -/
def expect (a : ArgumentsId) (what : String) : Action Value := do
  match (← a.view).eat? with
  | some (v, rest) =>
    a.store rest
    return v
  | none => Action.fail (.eval (.missingArgument what))

/-- Reads the argument of a name, or a default. -/
def named (a : ArgumentsId) (name : String) (default : Value) : Action Value := do
  let (found, rest) := (← a.view).takeNamed name
  a.store rest
  return found.getD default

/-- Reads all named arguments. -/
def takeAllNamed (a : ArgumentsId) : Action (List (String × Value)) := do
  let x ← a.view
  a.store { x with named := [] }
  return x.named

/-- Reads all positional arguments. -/
def takeAllPositional (a : ArgumentsId) : Action (List Value) := do
  let x ← a.view
  a.store { x with positional := [] }
  return x.positional

/-- Reports arguments that were not read. -/
def finish (a : ArgumentsId) : Action Unit := do
  match (← a.view).leftover? with
  | some fault => Action.fail (.eval fault)
  | none => pure ()

end ArgumentsId

end LexEnv
