import LexEnv.Guest
import LexEnv.Library

/-!
# Invoking functions and classes

Invoking runs the program of a function, or of a class's template, and then reports arguments that
it did not read. Programs invoke further functions, so the meaning of invocations is tied to itself;
the nesting is bounded by `nestingBound`, since each nested invocation either reads arguments for
good or takes place one block deeper.
-/

namespace LexEnv

/-- What a native function does. -/
def Native.program : Native → ContextId → ArgumentsId → Program Value
  | .builtin f => f.program
  | .guest f => f.program

namespace Template

/-- How an object is constructed. -/
def construct (t : Template) (context : ContextId) (args : ArgumentsId) : Program Value :=
  match t with
  | .record => constructRecord context args
  | .point => constructPoint args
  | .box => constructBox context args
  | .blank => .done .none

/-- How defaults are set. -/
def set (t : Template) (context : ContextId) (args : ArgumentsId) : Program Value :=
  match t with
  | .record => setRecord context args
  | .box => setBox context args
  | .point | .blank => .done .none

end Template

/-- What a value does when it is put to a use, if it can be. -/
def Value.body? (use : Use) (target : Value) : Option (ContextId → ArgumentsId → Program Value) :=
  match use, target with
  | .call, .func f => some f.native.program
  | .construct, .cls c => some c.template.construct
  | .set, .cls c => some c.template.set
  | _, _ => Option.none

/-- Fails because a value cannot be put to a use. A slot that can be asked for a write is one that
is set too, but it takes a value only. -/
def Value.refuse {α : Type} (use : Use) (target : Value) : Action α := do
  match use, target with
  | .set, .slot s =>
    match ← s.kind with
    | .bare => target.lacking use.name
    | kind => overloaded (kind.typeName ++ "." ++ use.name) 2 3
  | _, _ => target.lacking use.name

/-- Runs a program on arguments and reports those that it did not read. -/
def Program.finishing (invoke : Invocation) (body : Program Value) (args : ArgumentsId) :
    Action Value := do
  let v ← body.run invoke
  args.finish
  return v

/-- Invocation with at most `nesting` invocations inside each other. -/
def invokeWithin : (nesting : Nat) → Invocation
  | 0 => fun _ _ _ _ => Action.fail .endless
  | nesting + 1 => fun use target context args =>
    match target.body? use with
    | some body => (body context args).finishing (invokeWithin nesting) args
    | none => target.refuse use

/-- More than the nesting that an invocation can reach: every further one has fewer positional
arguments or is one scope deeper. -/
def Heap.nestingBound (h : Heap) (context : ContextId) (args : ArgumentsId) : Nat :=
  let stack := h.stack (h.context context).stack
  (h.args args).positional.length + (stack.maxDepth - stack.depth).toNat + 2

/-- Invokes a function or class. -/
def invoke : Invocation := fun use target context args => do
  let nesting ← Action.read (·.nestingBound context args)
  invokeWithin nesting use target context args

/-- Runs a program. -/
def Program.toAction {α : Type} (p : Program α) : Action α := p.run LexEnv.invoke

end LexEnv
