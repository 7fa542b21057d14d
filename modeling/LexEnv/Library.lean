import LexEnv.Program

/-!
# The standard library

The functions that every evaluation can see, as programs, and the class of records. A function reads
its arguments before it does anything else, and leaves unexpected ones for its caller to report.

A library scope binds them constant, so that scripts can hide a name in their own scopes and never
overwrite it.
-/

namespace LexEnv

open Program

namespace Builtin

/-- Fails because a value has no conversion to a kind. -/
def refuse (v : Value) (kind : String) : Program Value := do
  .fail (.eval (.notConvertible (← exec (.scriptType v)) kind))

/-- The text of a number or a text. -/
def toText (v : Value) : Program Value :=
  match v with
  | .text s => .done (.text s)
  | .int n => do return .text (← exec (.written (.int n)))
  | .float x serial => do return .text (← exec (.written (.float x serial)))
  | v => refuse v "string"

/-- The integer of a number or a numeral. -/
def toInteger (v : Value) : Program Value :=
  match v.toInteger? with
  | some n => .done (.int n)
  | none => refuse v "integer"

/-- The floating point number of a number or a numeral; such a number is itself. -/
def toFloat (v : Value) : Program Value :=
  match v with
  | .float x serial => .done (.float x serial)
  | v =>
    match v.toFloat? with
    | some x => exec (.newFloat x)
    | none => refuse v "float"

/-- The length of a text, list or dictionary. -/
def length (v : Value) : Program Value := do
  match ← exec (.size? v) with
  | some n => return .int n
  | none => .fail (.eval (.notCountable (← exec (.scriptType v))))

/-- Reads so many positional arguments and shows each before the next is read. -/
def displayed (args : ArgumentsId) : Nat → Program (List String)
  | 0 => .done []
  | n + 1 => do
    let v ← exec (.eat args)
    let s ← exec (.display v)
    return s :: (← displayed args n)

/-- Texts joined by a separator. Bytes can separate nothing, and join no texts to empty bytes. -/
def join (sep : Value) (parts : List String) : Program Value :=
  match sep with
  | .text s => .done (.text (Text.joinWith s parts))
  | .bytes _ => if parts.isEmpty then .done (.bytes []) else .fail (.typing .joinedByBytes)
  | sep => do .fail (.missingAttribute (← exec (.typeName sep)) "join")

/-- Prints the positional arguments as one entry of the output. The output has to be a list before
anything is joined. -/
def printAll (context : ContextId) (args : ArgumentsId) : Program Value := do
  let sep ← exec (.named args "sep" (.text " "))
  let parts ← displayed args (← exec (.arguments args)).positional.length
  let lines ← exec (.outputOf context)
  exec (.append lines (← join sep parts))
  return .none

/-- Fails unless the condition holds, with the message that was given if it counts as true. -/
def require (args : ArgumentsId) : Program Value := do
  let condition ← exec (.expect args "condition")
  let message ← exec (.named args "message" .none)
  if ← exec (.truth condition) then return .none
  else if ← exec (.truth message) then .fail (.eval (.given message))
  else .fail (.eval .assertion)

/-- What a function of the library does. -/
def program (f : Builtin) (context : ContextId) (args : ArgumentsId) : Program Value :=
  match f with
  | .repr => do
    let v ← exec (.expect args "value")
    return .text (← exec (.written v))
  | .type => do
    let v ← exec (.expect args "value")
    return .text (← exec (.scriptType v))
  | .len => do length (← exec (.expect args "collection"))
  | .str => do toText (← exec (.expect args "value"))
  | .int => do toInteger (← exec (.expect args "value"))
  | .float => do toFloat (← exec (.expect args "value"))
  | .print => printAll context args
  | .assert => require args

end Builtin

/-! ## Records -/

namespace Template

/-- A dictionary of the defaults for records with the named arguments put over them. -/
def constructRecord (context : ContextId) (args : ArgumentsId) : Program Value := do
  let defaults ← exec (.defaults context "record")
  let named ← exec (.takeAllNamed args)
  exec (.newDict (defaults.insertAll named))

/-- Puts the named arguments over the defaults for records. -/
def setRecord (context : ContextId) (args : ArgumentsId) : Program Value := do
  exec (.addDefaults context "record" (← exec (.arguments args)).named)
  let _ ← exec (.takeAllNamed args)
  return .none

end Template

/-! ## The library scope -/

namespace ScopeId

/-- A new scope with the standard definitions. -/
def newLibrary : Action ScopeId := do
  let c ← create .empty
  Builtin.all.forM fun f => c.defineFunc f.name (.builtin f)
  c.defineClass "record" (.templated .record)
  c.defineConst (.text "none") .none
  c.defineConst (.text "true") (.bool true)
  c.defineConst (.text "false") (.bool false)
  return c

end ScopeId

end LexEnv
