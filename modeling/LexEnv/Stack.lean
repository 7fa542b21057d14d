import LexEnv.Scope
import LexEnv.Slot

/-!
# Stacks of scopes

A stack has an active scope, suspended scopes and an optional base. Look-ups go from the active
scope through the suspended ones, innermost first, and consult the base last. Definitions go to the
active scope only, so they never bind a name in the base. An assignment writes the slot that a name
resolves to, wherever it is bound.

Entering suspends the active scope and activates an empty one. It is refused at the greatest depth
and while more memory is in use than the stack allows. Leaving drops the active scope. A block
enters, runs a body and leaves again however the body ends.
-/

namespace LexEnv

namespace Stack

/-- The number of suspended scopes. -/
def depth (st : Stack) : Nat := st.suspended.length

/-- The scopes of a look-up, in order. -/
def chain (st : Stack) : List ScopeId := st.active :: st.suspended ++ st.base.toList

/-- How many of a unit of memory the next larger unit has. -/
def unitRatio : Nat := 1024

/-- An amount of memory in megabytes. It is divided into kilobytes and then once more, and each
quotient is rounded. The first fails if it is beyond all numbers. -/
def megabytes (bytes : Int) : Except Error Number.Binary64 :=
  let kilobytes := Number.Binary64.roundRatio (bytes < 0) bytes.natAbs unitRatio
  if kilobytes.isInfinite then .error (.overflow .quotient)
  else .ok (kilobytes.div (.ofInt unitRatio))

/-- The error of a limit that is reached. It names the limit, so it is another one if the limit has
too many digits to be written. -/
def refusal (cause : Number.WritableInt → Error) (limit : Int) : Error :=
  if writable : Number.Writable limit then cause ⟨limit, writable⟩ else .digitLimit

/-- Whether a stack may be entered with that much memory in use. -/
def mayEnter (st : Stack) (resident : Int) : Except Error Unit :=
  if st.maxDepth ≤ st.depth then .error (refusal .depthLimit st.maxDepth)
  else
    match st.memoryLimit with
    | none => .ok ()
    | some limit => do
      if (← megabytes resident).exceeds limit then .error (refusal .memoryLimit limit)

end Stack

namespace Heap

/-- The slot that a key is bound to in the first scope of a chain that binds it. -/
def resolve (h : Heap) (key : Key) : (chain : List ScopeId) → Except Error (Option SlotId)
  | [] => .ok none
  | c :: chain => do
    match ← h.find? key (h.scope c) with
    | some s => return some s
    | none => h.resolve key chain

/-- A text resolves to the first slot that a plain look-up finds. -/
theorem resolve_text (h : Heap) (name : String) (chain : List ScopeId) :
    h.resolve (.text name) chain
      = .ok (chain.findSome? fun c => (h.scope c).get? name) := by
  induction chain with
  | nil => rfl
  | cons c chain ih =>
    rw [resolve, find?_text, List.findSome?_cons]
    cases (h.scope c).get? name <;>
      simp [bind, Except.bind, pure, Except.pure, ih]

/-- The bindings of a chain that no earlier scope of it hides, in ascending order of names. -/
def visible (h : Heap) (chain : List ScopeId) : Except Error (List (Value × SlotId)) := do
  let seen ← chain.foldlM (fun seen c => do
    (← h.enumerate (h.scope c)).foldlM (fun seen (name, s) => do
      let key ← h.key name
      match ← h.find? key seen with
      | some _ => return seen
      | none => h.put key s seen) seen) Table.empty
  h.enumerate seen

/-- The text of a value in the gap of a message. A tuple stands for what it holds, and has to hold
exactly one value. -/
def gapText (h : Heap) : Value → Except Error String
  | .sequence .tuple c =>
    match h.sequence c with
    | [] => .error (.typing .unfilledGap)
    | [v] => h.display v
    | _ => .error (.typing .overfilledGap)
  | v => h.display v

end Heap

namespace StackId

/-- A new stack with an empty active scope. -/
def create (base : Option ScopeId) (maxDepth : Int) (memoryLimit : Option Int) :
    Action StackId := do
  let active ← ScopeId.create .empty
  Action.allocate (·.addStack ⟨active, [], base, maxDepth, memoryLimit⟩)

/-- The state of a stack. -/
def view (s : StackId) : Action Stack := Action.read (·.stack s)

/-- The number of suspended scopes. -/
def depth (s : StackId) : Action Nat := do return (← s.view).depth

/-- The active scope. -/
def active (s : StackId) : Action ScopeId := do return (← s.view).active

/-! ## Entering and leaving -/

/-- Activates a new scope. -/
def enter (s : StackId) : Action Unit := do
  let st ← s.view
  Action.ofOutcome (st.mayEnter (← Action.state).resident)
  let fresh ← ScopeId.create .empty
  let entered := { st with active := fresh, suspended := st.active :: st.suspended }
  Action.modifyHeap (·.setStack s entered)
  Action.record (.entered (st.depth + 1))

/-- Drops the active scope. -/
def exit (s : StackId) : Action Unit := do
  let st ← s.view
  match st.suspended with
  | [] => Action.fail .underflow
  | outer :: rest =>
    Action.modifyHeap (·.setStack s { st with active := outer, suspended := rest })
    Action.record (.exited rest.length)

/-- Runs a body in a new active scope and leaves the scope however the body ends; answers how the
body ended and how leaving did. -/
def enclose {α : Type} (s : StackId) (body : ScopeId → Action α) :
    Action (Except Error α × Except Error Unit) := do
  s.enter
  let outcome ← (do body (← s.active)).attempt
  let left ← s.exit.attempt
  return (outcome, left)

/-- Runs a body in a block. An error on leaving takes the place of the outcome of the body. -/
def block {α : Type} (s : StackId) (body : ScopeId → Action α) : Action α := do
  let (outcome, left) ← s.enclose body
  Action.ofOutcome left
  Action.ofOutcome outcome

/-! ## Definitions -/

/-- Binds a name to a new constant slot in the active scope. -/
def defineConst (s : StackId) (name v : Value) : Action Unit := do
  let st ← s.view
  Action.recordShown (.definedConstant · st.depth) (·.display name)
  st.active.defineConst name v

/-- Binds a name to a new mutable slot in the active scope. -/
def defineMut (s : StackId) (name v : Value) : Action Unit := do
  let st ← s.view
  Action.recordShown (.definedVariable · st.depth) (·.display name)
  st.active.defineMut name v

/-- Binds a name to a slot in the active scope. -/
def bind (s : StackId) (name : Value) (slot : SlotId) : Action Unit := do
  let st ← s.view
  Action.recordShown (.boundSlot · st.depth) (·.display name)
  st.active.bind name slot

/-! ## Names -/

/-- The slot that a name resolves to. -/
def lookup (s : StackId) (name : Value) : Action (Option SlotId) := do
  let st ← s.view
  Action.inspect fun h => do h.resolve (← h.key name) st.chain

/-- The slot of a name that has to resolve. -/
def resolve (s : StackId) (name : Value) : Action SlotId := do
  match ← s.lookup name with
  | some slot => return slot
  | none => Action.fail (.undefinedName (← Action.inspect (·.gapText name)))

/-- The value of a name. -/
def get (s : StackId) (name : Value) : Action Value := do (← s.resolve name).get

/-- Writes into the slot of a name. -/
def assign (s : StackId) (name v : Value) : Action Unit := do
  (← s.resolve name).set v

/-- A new scope that binds the slots that some names resolve to. -/
def capture (s : StackId) (names : List Value) : Action ScopeId := do
  let st ← s.view
  let captured ← Action.inspect fun h =>
    names.foldlM (fun captured name => do
      let key ← h.key name
      match ← h.resolve key st.chain with
      | some slot => h.put key slot captured
      | none => return captured) Table.empty
  ScopeId.create captured

/-- All names that resolve, with their slots, in ascending order of names. -/
def visible (s : StackId) : Action (List (Value × SlotId)) := do
  let st ← s.view
  Action.inspect (·.visible st.chain)

end StackId

end LexEnv
