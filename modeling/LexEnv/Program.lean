import LexEnv.Command

/-!
# Programs

A program performs commands one after the other. After each it goes on with the outcome, so it can
catch errors, or let them end it. Besides commands it can update a slot by a function that is itself
a program, run a program as the body of a block, and invoke a function or class.

Native functions are programs, and so is anything that a host does with the library. `Program.run`
takes the meaning of invocations as a parameter; it is recursion on the program. `Call.lean`
supplies that meaning.
-/

namespace LexEnv

/-- What a value is invoked for: a function is called, a class constructs an object or sets the
defaults for its constructions. -/
inductive Use where
  | call | construct | set
deriving DecidableEq, Repr

/-- The name of a use. -/
def Use.name : Use → String
  | .call => "call"
  | .construct => "construct"
  | .set => "set"

/-- A program that ends with a result or an error. -/
inductive Program : Type → Type 1 where
  | done {α : Type} (a : α) : Program α
  | fail {α : Type} (e : Error) : Program α
  | perform {α β : Type} (c : Command β) (next : Except Error β → Program α) : Program α
  | update {α : Type} (s : SlotId) (revise : Value → Program Value)
      (next : Except Error Value → Program α) : Program α
  | block {α β : Type} (s : StackId) (body : ScopeId → Program β)
      (next : Except Error β → Program α) : Program α
  | invoke {α : Type} (use : Use) (target : Value) (context : ContextId) (args : ArgumentsId)
      (next : Except Error Value → Program α) : Program α

/-- The meaning of invocations. -/
abbrev Invocation := Use → Value → ContextId → ArgumentsId → Action Value

namespace Program

/-! ## Composition -/

/-- Goes on with the result of a program; an error ends both. -/
def andThen : {α β : Type} → Program α → (α → Program β) → Program β
  | _, _, .done a, f => f a
  | _, _, .fail e, _ => .fail e
  | _, _, .perform c next, f => .perform c fun r => (next r).andThen f
  | _, _, .update s revise next, f => .update s revise fun r => (next r).andThen f
  | _, _, .block s body next, f => .block s body fun r => (next r).andThen f
  | _, _, .invoke use target context args next, f =>
    .invoke use target context args fun r => (next r).andThen f

instance : Monad Program where
  pure := .done
  bind := andThen

/-- Takes up an outcome: its result, or its error. -/
def ofOutcome {α : Type} : Except Error α → Program α
  | .ok a => .done a
  | .error e => .fail e

/-- A command whose error ends the program. -/
def exec {α : Type} (c : Command α) : Program α := .perform c ofOutcome

/-- A block whose error ends the program. -/
def within {α : Type} (s : StackId) (body : ScopeId → Program α) : Program α :=
  .block s body ofOutcome

/-- An invocation whose error ends the program. -/
def invoking (use : Use) (target : Value) (context : ContextId) (args : ArgumentsId) :
    Program Value :=
  .invoke use target context args ofOutcome

/-! ## Running -/

/-- Runs a program. -/
def run (invoke : Invocation) : {α : Type} → Program α → Action α
  | _, .done a => pure a
  | _, .fail e => Action.fail e
  | _, .perform c next => do
    let outcome ← c.run.attempt
    (next outcome).run invoke
  | _, .update s revise next => do
    let outcome ← (s.update fun v => (revise v).run invoke).attempt
    (next outcome).run invoke
  | _, .block s body next => do
    let outcome ← (s.block fun top => (body top).run invoke).attempt
    (next outcome).run invoke
  | _, .invoke use target context args next => do
    let outcome ← (invoke use target context args).attempt
    (next outcome).run invoke

theorem run_ofOutcome {α : Type} (invoke : Invocation) (r : Except Error α) :
    (ofOutcome r).run invoke = Action.ofOutcome r := by
  cases r <;> rfl

/-- A single command runs as itself. -/
theorem run_exec {α : Type} (invoke : Invocation) (c : Command α) :
    (exec c).run invoke = c.run := by
  show (c.run.attempt >>= fun outcome => (ofOutcome outcome).run invoke) = c.run
  simp only [run_ofOutcome]
  exact Action.attempt_bind_ofOutcome c.run

/-- Running a composition runs the first program and then what follows on its result. -/
theorem run_andThen {α β : Type} (invoke : Invocation) (p : Program α) (f : α → Program β) :
    (p.andThen f).run invoke = (p.run invoke >>= fun a => (f a).run invoke) := by
  induction p with
  | done a => rfl
  | fail e => rfl
  | perform c next ih => simp only [andThen, run, ih, bind_assoc]
  | update s revise next _ ih => simp only [andThen, run, ih, bind_assoc]
  | block s body next _ ih => simp only [andThen, run, ih, bind_assoc]
  | invoke use target context args next ih => simp only [andThen, run, ih, bind_assoc]

end Program

end LexEnv
