import LexEnv.Script.Step

/-!
# Probes

Single questions to the library, each asked in a state of its own: what one call of a library
function does, how two scopes compare, and what an error says.
-/

namespace LexEnv.Script

/-! ## One call -/

/-- Keeps the objects that the terms of a call probe can use, and answers the context of the call.
-/
def prepareCall : Action ContextId := do
  let library ← ScopeId.newLibrary
  let stack ← StackId.create (some library) 1000 none
  let context ← ContextId.create stack .none .none
  let scope ← ScopeId.create .empty
  scope.defineConst (.text "a") (.int 1)
  scope.defineMut (.text "b") (.text "two")
  Action.keep "lib" (.scope library)
  Action.keep "stack" (.stack stack)
  Action.keep "ctx" (.context context)
  Action.keep "slot" (.slot (← SlotId.create .mutable (.int 1)))
  Action.keep "const" (.slot (← SlotId.create .constant (.text "k")))
  Action.keep "base_slot" (.slot (← SlotId.create .bare .none))
  Action.keep "empty" (.scope (← ScopeId.create .empty))
  Action.keep "scope" (.scope scope)
  Action.keep "args" (.arguments (← ArgumentsId.create [] []))
  Action.keep "func" (← Value.newFunc "user" (.guest .answer))
  Action.keep "class" (← Value.newClass "pt" (.templated .point))
  return context

/-- What a call did: its result, the output of its context, and the arguments it left. -/
structure CallReport where
  outcome : Except Failure Report
  output : Report
  left : Report

/-- Calls the function of a name, or constructs an object of the class of that name. -/
def probeCall (name : String) (positional : List Term) (named : List (String × Term)) :
    Action CallReport := do
  let context ← prepareCall
  let args ← (Passing.terms positional named).resolve
  let outcome ← (do
    let target ← (← context.stack).get (.text name)
    let use := match target with
      | .cls _ => Use.construct
      | _ => Use.call
    showValue (← LexEnv.invoke use target context args)).attempt
  let outcome ← match outcome with
    | .ok r => pure (.ok r)
    | .error e => do pure (.error (← showError e))
  let unread ← args.view
  let positional ← showValue (← Value.newList unread.positional)
  let named ← showValue (← Value.newNamedDict unread.named)
  return {
    outcome
    output := ← showValue (← context.view).output
    left := .list [positional, named] }

/-! ## Two scopes -/

/-- A definition in a scope that is compared. -/
inductive Definition where
  | const (name : String) (value : Term)
  | mut (name : String) (value : Term)
  | func (name : String) (native : Native)
  | cls (name : String) (type : HostType)

/-- Makes a definition. -/
def Definition.make (c : ScopeId) : Definition → Action Unit
  | .const name value => do c.defineConst (.text name) (← value.eval)
  | .mut name value => do c.defineMut (.text name) (← value.eval)
  | .func name native => c.defineFunc name native
  | .cls name type => c.defineClass name type

/-- A new scope with definitions, made in order. -/
def scopeWith (definitions : List Definition) : Action ScopeId := do
  let c ← ScopeId.create .empty
  definitions.forM fun d => d.make c
  return c

/-- Compares two scopes; their written forms are left out on request. -/
def probePair (a b : List Definition) (withoutWritten : Bool) : Action Report := do
  let a ← scopeWith a
  let b ← scopeWith b
  let shown := fun (c : ScopeId) => do showValue (← Value.newList (← c.names))
  let names := [← shown a, ← shown b]
  let sizes := [(← a.bindings).size, (← b.bindings).size].map fun (n : Nat) =>
    Report.datum (.int n)
  let equality ← showEquality (.scope a) (.scope b)
  let sameHash ← showSameHash (.scope a) (.scope b)
  let written := fun (c : ScopeId) => do
    pure (Report.datum (.text (← Action.inspect (·.written (.scope c)))))
  let texts ← if withoutWritten then pure [] else do
    pure [("repr", Report.list [← written a, ← written b])]
  return .fields (equality ++ [("hash_eq", sameHash), ("names", .list names), ("len", .list sizes)]
    ++ texts)

/-! ## One error -/

/-- The errors that a host can make itself. -/
inductive HostError where
  | eval | constantWrite | underflow
deriving DecidableEq, Repr

/-- The operation that makes an error. -/
def HostError.operation : HostError → String
  | .eval => "EvalError.__init__"
  | .constantWrite => "ConstantWriteError.__init__"
  | .underflow => "ScopeUnderflowError.__init__"

/-- Makes an error of what it is to carry: a message, a value, or nothing. -/
def HostError.make (error : HostError) (operands : List Value) : Except Error Error :=
  let given := operands.length + 1
  match error, operands with
  | .eval, [message] => .ok (.eval (.given message))
  | .constantWrite, [value] => .ok (.constantWrite value)
  | .underflow, [] => .ok .underflow
  | .eval, [] => .error (.typing (.missingOperand error.operation "message"))
  | .constantWrite, [] => .error (.typing (.missingOperand error.operation "value"))
  | .underflow, _ => .error (.typing (.tooManyOperands error.operation 1 given))
  | _, _ => .error (.typing (.tooManyOperands error.operation 2 given))

/-- What an error says, and the families it belongs to. -/
structure ErrorReport where
  text : Report
  args : Report
  families : List ErrorFamily
  message : Report
  value : Report

/-- The text of an error, which its message has to be. -/
def textOf (e : Error) : Action String := do
  match e.message with
  | .text s => return s
  | v => Action.fail (.typing (.messageNotText (← Action.read (·.typeName v))))

/-- Makes an error and shows it. -/
def probeError (error : HostError) (operands : List Term) : Action ErrorReport := do
  let e ← Action.ofOutcome (error.make (← Term.evalItems operands))
  let text ← textOf e
  let message := match e with
    | .eval fault => fault.message
    | _ => .none
  let value := match e with
    | .constantWrite v => v
    | _ => .none
  return {
    text := .datum (.text text)
    args := ← showValue (← Value.newSequence .tuple [e.message])
    families := e.kind.families
    message := ← showValue message
    value := ← showValue value }

/-! ## Running in a fresh state -/

/-- Performs an operation in the state in which nothing exists; an error is shown in the state that
it left. -/
def freshly {α : Type} (x : Action α) : Except Failure α × State :=
  match x.run .initial with
  | (.ok a, s) => (.ok a, s)
  | (.error e, s) => (.error (failureOf s.heap e), s)

end LexEnv.Script
