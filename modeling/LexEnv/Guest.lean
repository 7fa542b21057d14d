import LexEnv.Program

/-!
# Functions and classes of the host

Natives that a host registers to reach the library from within an evaluation: they look names up,
assign and define them, enter and leave scopes, call other functions, and exercise the ways in which
arguments can be read. The classes are the small ones a host needs: a pair of coordinates, a box
with a default filling, and a blank that neither constructs nor sets anything.
-/

namespace LexEnv

open Program

namespace Guest

/-- Counts down to zero, one block per step, and answers the depth that was reached. -/
def countDown (context : ContextId) (args : ArgumentsId) : Program Value := do
  let n ← exec (.expect args "n")
  let stack ← exec (.contextStack context)
  if ← exec (.atMostZero n) then return .int (← exec (.depth stack))
  else
    within stack fun top => do
      exec (.scopeDefineConst top (.text "n") n)
      let next ← exec (.get stack (.text "countdown"))
      let fewer ← exec (.add n (.int (-1)))
      invoking .call next context (← exec (.createArguments [fewer] []))

/-- What a function of the host does. -/
def program (f : Guest) (context : ContextId) (args : ArgumentsId) : Program Value :=
  match f with
  | .answer => .done (.int 42)
  | .first => exec (.expect args "value")
  | .echo => do
    let positional ← exec (.newSequence .list (← exec (.takeAllPositional args)))
    let named ← exec (.newDict (.ofList (← exec (.takeAllNamed args))))
    exec (.newSequence .list [positional, named])
  | .eatTwo => do
    let first ← exec (.eat args)
    let second ← exec (.eat args)
    exec (.newSequence .list [first, second])
  | .optional => do
    let value ← exec (.expect args "value")
    let mode ← exec (.named args "mode" (.text "default"))
    exec (.newSequence .list [value, mode])
  | .lookup => do
    let name ← exec (.expect args "name")
    exec (.get (← exec (.contextStack context)) name)
  | .assign => do
    let name ← exec (.expect args "name")
    let value ← exec (.expect args "value")
    exec (.assign (← exec (.contextStack context)) name value)
    return .none
  | .define => do
    let name ← exec (.expect args "name")
    let value ← exec (.expect args "value")
    exec (.defineMut (← exec (.contextStack context)) name value)
    return .none
  | .enter => do
    exec (.enter (← exec (.contextStack context)))
    return .none
  | .exit => do
    exec (.exit (← exec (.contextStack context)))
    return .none
  | .apply => do
    let function ← exec (.expect args "function")
    let positional ← exec (.takeAllPositional args)
    let named ← exec (.takeAllNamed args)
    invoking .call function context (← exec (.createArguments positional named))
  | .scoped => do
    let name ← exec (.expect args "name")
    let value ← exec (.expect args "value")
    let function ← exec (.expect args "function")
    let stack ← exec (.contextStack context)
    within stack fun _ => do
      exec (.defineMut stack name value)
      let rest := (← exec (.arguments args)).positional
      invoking .call function context (← exec (.createArguments rest []))
  | .countdown => countDown context args
  | .fail => do .fail (.eval (.given (← exec (.expect args "message"))))

end Guest

namespace Template

/-- A pair of coordinates. -/
def constructPoint (args : ArgumentsId) : Program Value := do
  let x ← exec (.expect args "x")
  let y ← exec (.expect args "y")
  exec (.newSequence .tuple [x, y])

/-- A box with a content and the filling that was set for boxes. -/
def constructBox (context : ContextId) (args : ArgumentsId) : Program Value := do
  let content ← exec (.expect args "content")
  let fill ← exec (.defaultOf context "box" "fill")
  exec (.newSequence .list [.text "box", content, fill])

/-- Sets the filling of boxes. -/
def setBox (context : ContextId) (args : ArgumentsId) : Program Value := do
  let fill ← exec (.named args "fill" .none)
  exec (.setDefaults context "box" (← exec (.newDict (.ofList [("fill", fill)]))))
  return .none

end Template

end LexEnv
