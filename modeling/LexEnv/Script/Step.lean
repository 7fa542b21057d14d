import LexEnv.Call
import LexEnv.Script.Report
import LexEnv.Script.Term

/-!
# Steps

The language of scripts that drive the library. A `Deed` is one operation on objects that are named
by handles; a `Step` is a deed, a step whose object is kept under a handle, or a block of steps. A
deed answers what is shown and the object that can be kept.
-/

namespace LexEnv.Script

/-- How a script updates a slot. -/
inductive Revision where
  | add | mul | const | fail
  /-- Writes the operand and ends with the old value and the one then held. -/
  | setThenPair
  /-- Writes the operand and fails. -/
  | setThenFail
  /-- Updates the slot inside the update. -/
  | nested
  /-- Writes the operand into another slot and keeps the old value. -/
  | writeOther (other : String)

/-- Where a part of a new context comes from. -/
inductive Part where
  | fresh
  | given (t : Term)
  | sharedWith (context : String)

/-- What is invoked: the object of a handle, or what a name is bound to. -/
inductive Target where
  | handle (name : String)
  | named (name : String)

/-- The arguments of an invocation: those kept under a handle, or new ones. -/
inductive Passing where
  | handle (name : String)
  | terms (positional : List Term) (named : List (String × Term))

/-- One operation. -/
inductive Deed where
  -- Slots.
  | slot (kind : SlotKind) (value : Term)
  | getSlot (on : String)
  | setSlot (on : String) (value : Term)
  | setSlotDirectly (on : String) (value : Term)
  | update (on : String) (revision : Revision) (operand : Term)
  | isConstant (on : String)
  -- Scopes.
  | scope (slots : List (String × String))
  | library
  | defineConst (on name : String) (value : Term)
  | defineMut (on name : String) (value : Term)
  | defineSlot (on name slot : String)
  | defineFunc (on name : String) (native : Native)
  | defineClass (on name : String) (type : HostType)
  | lookup (on name : String)
  | enumerate (on : String)
  | iterate (on : String)
  | names (on : String)
  | copy (on : String)
  | contains (on name : String)
  | length (on : String)
  -- Values.
  | truth (value : Term)
  | compare (a b : Term)
  | equal (a b : Term)
  | same (a b : String)
  | written (value : Term)
  -- Stacks.
  | stack (base : Option String) (maxDepth : Int) (memoryLimit : Option Int)
  | sample (resident : Int)
  | enter (on : String) (times : Nat)
  | exit (on : String) (times : Nat)
  | depth (on : String)
  | top (on : String)
  | get (on name : String)
  | assign (on name : String) (value : Term)
  | capture (on : String) (names : List String)
  | visible (on : String)
  | bindAll (on into : String)
  | stackState (on : String)
  | raise (message : String)
  -- Calls.
  | arguments (positional : List Term) (named : List (String × Term))
  | eat (on : String)
  | expect (on what : String)
  | named (on name : String) (default : Term)
  | finish (on : String)
  | argumentsState (on : String)
  | context (stack : String) (styles output : Part)
  | contextState (on : String)
  | func (name : String) (native : Native)
  | cls (name : String) (type : HostType)
  | invoke (use : Use) (context : String) (target : Target) (passing : Passing)

/-- A step of a script. -/
inductive Step where
  | deed (d : Deed)
  /-- Keeps the object of a step under a handle, if the step succeeds. -/
  | keep (name : String) (step : Step)
  /-- Runs steps in a block and keeps its scope under a handle. Unless it is catching, the first
  error ends the block. -/
  | block (on : String) (scope : Option String) (catching : Bool) (steps : List Step)

/-! ## Objects of handles -/

/-- The slot kept under a handle. -/
def slotOf (on operation : String) : Action SlotId := do
  match ← Action.handle on with
  | .slot s => return s
  | v => v.lacking operation

/-- The slot kept under a handle, to be set. A class can be set as well, but not to a value. -/
def writableOf (on : String) : Action SlotId := do
  match ← Action.handle on with
  | .cls _ => Action.fail (.typing (.missingOperand "Class.set" "args"))
  | _ => slotOf on "set"

/-- The slot kept under a handle, to be updated by a function. Dictionaries and sets can be updated
as well, but by the elements of a value. -/
def updatableOf (on : String) : Action SlotId := do
  match ← Action.handle on with
  | .dict _ | .set .changing _ => Action.fail (.typing (.notIterable "function"))
  | _ => slotOf on "update"

/-- The scope kept under a handle. -/
def scopeOf (on operation : String) : Action ScopeId := do
  match ← Action.handle on with
  | .scope c => return c
  | v => v.lacking operation

/-- The scope kept under a handle, to be gone through. -/
def iterableOf (on : String) : Action ScopeId := do
  match ← Action.handle on with
  | .scope c => return c
  | v => Action.fail (.typing (.notIterable (← Action.read (·.typeName v))))

/-- The stack kept under a handle. -/
def stackOf (on operation : String) : Action StackId := do
  match ← Action.handle on with
  | .stack s => return s
  | v => v.lacking operation

/-- The arguments kept under a handle. -/
def argumentsOf (on operation : String) : Action ArgumentsId := do
  match ← Action.handle on with
  | .arguments a => return a
  | v => v.lacking operation

/-- The context kept under a handle. -/
def contextOf (on operation : String) : Action ContextId := do
  match ← Action.handle on with
  | .context c => return c
  | v => v.lacking operation

/-! ## Results -/

/-- What a deed shows, and the object that can be kept. -/
structure Result where
  report : Report
  object : Value

/-- A result that shows its object. -/
def resultOf (v : Value) : Action Result := do return ⟨← showValue v, v⟩

/-- The result of an operation that has none. -/
def nothing : Action Result := resultOf .none

/-- A result of several values in a list. -/
def resultOfList (vs : List Value) : Action Result := do resultOf (← Value.newList vs)

/-- A result of names with their slots. -/
def resultOfBindings (bs : List (Value × SlotId)) : Action Result := do
  return ⟨← showBindings bs, .none⟩

/-- A whole number as a value. -/
def whole (n : Nat) : Value := .int n

/-! ## Updates -/

/-- What a revision makes of the old value of a slot. -/
def Revision.apply (s : SlotId) (operand : Value) (r : Revision) (old : Value) : Action Value :=
  match r with
  | .add => old.add operand
  | .mul => old.mul operand
  | .const => return operand
  | .fail => do Action.fail (.raised (← Action.inspect (·.display operand)))
  | .setThenPair => do
    s.set operand
    Value.newList [old, ← s.get]
  | .setThenFail => do
    s.set operand
    Action.fail (.raised "after set")
  | .nested => do
    let inner ← s.update (·.add operand)
    Value.newList [old, inner, ← s.get]
  | .writeOther other => do
    (← writableOf other).set operand
    return old

/-! ## Deeds -/

/-- Makes a definition in a scope or in the active scope of a stack. -/
def defineOn (on operation : String) (inScope : ScopeId → Action Unit)
    (onStack : StackId → Action Unit) : Action Unit := do
  match ← Action.handle on with
  | .scope c => inScope c
  | .stack s => onStack s
  | v => v.lacking operation

/-- Binds a name to a slot in a scope or in the active scope of a stack. -/
def bindOn (on : String) (name : Value) (s : SlotId) : Action Unit :=
  defineOn on "define_slot" (·.bind name s) (·.bind name s)

/-- Performs an operation a number of times; the first error ends it. -/
def repeatedly (x : Action Unit) : Nat → Action Unit
  | 0 => pure ()
  | n + 1 => do
    x
    repeatedly x n

/-- What a part of a new context is; `none` stands for a fresh one. -/
def Part.eval (own : Context → Value) : Part → Action Value
  | .fresh => pure .none
  | .given t => t.eval
  | .sharedWith context => do return own (← (← contextOf context "styles").view)

/-- What is to be invoked. -/
def Target.resolve (context : ContextId) : Target → Action Value
  | .handle name => Action.handle name
  | .named name => do (← context.stack).get (.text name)

/-- The arguments to be passed. -/
def Passing.resolve : Passing → Action ArgumentsId
  | .handle name => argumentsOf name "positional"
  | .terms positional named => do
    let positional ← Term.evalItems positional
    let named ← evalNamed named
    ArgumentsId.create positional named

/-- Shows two values compared. -/
def showEquality (a b : Value) : Action (List (String × Report)) :=
  Action.inspect fun h => do
    let eq ← h.equal a b
    return [("eq", .datum (.bool eq)), ("ne", .datum (.bool (!eq)))]

/-- Shows whether two values have the same hash; both have to have one. -/
def showSameHash (a b : Value) : Action Report :=
  Action.inspect fun h => do
    let a ← h.hash a
    let b ← h.hash b
    return .datum (.bool (a = b))

/-- Shows the scopes of a stack: the active one, the suspended ones from the outside inwards, and
the base. -/
def showStack (st : Stack) : Action Report := do
  let shown := fun (c : ScopeId) => do showBindings (← c.enumerate)
  let active ← shown st.active
  let suspended ← st.suspended.reverse.mapM shown
  let base ← match st.base with
    | some c => shown c
    | none => pure (.datum .none)
  return .fields [("top", active), ("scopes", .list suspended), ("base", base)]

/-- Performs a deed. -/
def perform : Deed → Action Result
  | .slot kind value => do resultOf (.slot (← SlotId.create kind (← value.eval)))
  | .getSlot on => do
    let v ← (← Action.handle on).content
    return { (← resultOfList [v, ← (← slotOf on "value").get]) with object := v }
  | .setSlot on value => do
    let s ← writableOf on
    s.set (← value.eval)
    resultOfList [.none, ← s.get]
  | .setSlotDirectly on value => do
    let s ← slotOf on "_lock"
    s.setDirectly (← value.eval)
    resultOfList [.none, ← s.get]
  | .update on revision operand => do
    let s ← updatableOf on
    let v ← s.update (revision.apply s (← operand.eval))
    resultOfList [v, ← s.get]
  | .isConstant on => do resultOf (.bool (← (← slotOf on "is_const").isConstant))
  | .scope slots => do
    let slots ← slots.mapM fun (name, handle) => do return (name, ← slotOf handle "get")
    resultOf (.scope (← ScopeId.create (.ofList slots)))
  | .library => do
    let c ← ScopeId.newLibrary
    return { (← resultOfList (← c.names)) with object := .scope c }
  | .defineConst on name value => do
    let v ← value.eval
    defineOn on "define_const" (·.defineConst (.text name) v) (·.defineConst (.text name) v)
    nothing
  | .defineMut on name value => do
    let v ← value.eval
    defineOn on "define_mut" (·.defineMut (.text name) v) (·.defineMut (.text name) v)
    nothing
  | .defineSlot on name slot => do
    let s ← slotOf slot "get"
    bindOn on (.text name) s
    nothing
  | .defineFunc on name native => do
    (← scopeOf on "define_func").defineFunc name native
    nothing
  | .defineClass on name type => do
    (← scopeOf on "define_class").defineClass name type
    nothing
  | .lookup on name => do
    let found ← match ← Action.handle on with
      | .scope c => c.lookup (.text name)
      | .stack s => s.lookup (.text name)
      | v => v.lacking "lookup"
    resultOf (match found with
      | some s => .slot s
      | none => .none)
  | .enumerate on => do resultOfBindings (← (← scopeOf on "enumerate").enumerate)
  | .iterate on => do
    let c ← iterableOf on
    let first ← showBindings (← c.enumerate)
    let second ← showBindings (← c.enumerate)
    return ⟨.list [first, second], .none⟩
  | .names on => do resultOfList (← (← scopeOf on "names").names)
  | .copy on => do resultOf (← (← Action.handle on).copy)
  | .contains on name => do resultOf (.bool (← (← Action.handle on).hasName name))
  | .length on => do
    let v ← Action.handle on
    match ← Action.read (·.size? v) with
    | some n => resultOf (whole n)
    | none => Action.fail (.typing (.noLength (← Action.read (·.typeName v))))
  | .truth value => do
    let v ← value.eval
    resultOf (.bool (← Action.read (·.truth v)))
  | .compare a b => do
    let a ← a.eval
    let b ← b.eval
    let equality ← showEquality a b
    return ⟨.fields (equality ++ [("hash_eq", ← showSameHash a b)]), .none⟩
  | .equal a b => do
    let a ← a.eval
    let b ← b.eval
    return ⟨.fields (← showEquality a b), .none⟩
  | .same a b => do
    let a ← Action.handle a
    let b ← Action.handle b
    resultOf (.bool (a = b))
  | .written value => do
    let v ← value.eval
    resultOf (.text (← Action.inspect (·.written v)))
  | .stack base maxDepth memoryLimit => do
    let base ← match base with
      | some handle => do pure (some (← scopeOf handle "enumerate"))
      | none => pure none
    let s ← StackId.create base maxDepth memoryLimit
    return {
      report := .fields [
        ("depth", .datum (.int 0)),
        ("max_depth", .datum (.int maxDepth)),
        ("max_memory_mb", .datum (memoryLimit.elim .none .int)),
        ("probe", .datum (.bool memoryLimit.isSome))]
      object := .stack s }
  | .sample resident => do
    Command.setResident resident
    nothing
  | .enter on times => do
    let s ← stackOf on (if times = 0 then "depth" else "enter")
    repeatedly s.enter times
    resultOf (whole (← s.depth))
  | .exit on times => do
    let s ← stackOf on (if times = 0 then "depth" else "exit")
    repeatedly s.exit times
    resultOf (whole (← s.depth))
  | .depth on => do resultOf (whole (← (← stackOf on "depth").depth))
  | .top on => do resultOf (.scope (← (← stackOf on "top").active))
  | .get on name => do resultOf (← (← Action.handle on).entry name)
  | .assign on name value => do
    let s ← stackOf on "assign"
    s.assign (.text name) (← value.eval)
    nothing
  | .capture on names => do
    resultOf (.scope (← (← stackOf on "capture").capture (names.map .text)))
  | .visible on => do resultOfBindings (← (← stackOf on "visible").visible)
  | .bindAll on into => do
    (← (← iterableOf on).enumerate).forM fun (name, s) => bindOn into name s
    nothing
  | .stackState on => do
    return ⟨← showStack (← (← stackOf on "top").view), .none⟩
  | .raise message => Action.fail (.raised message)
  | .arguments positional named => do
    let a ← (Passing.terms positional named).resolve
    let shown ← Action.inspect (·.written (.arguments a))
    return { (← resultOf (.text shown)) with object := .arguments a }
  | .eat on => do resultOf (← (← argumentsOf on "eat").eat)
  | .expect on what => do resultOf (← (← argumentsOf on "expect").expect what)
  | .named on name default => do
    let a ← argumentsOf on "named"
    resultOf (← a.named name (← default.eval))
  | .finish on => do
    (← argumentsOf on "finish").finish
    nothing
  | .argumentsState on => do
    let a ← (← argumentsOf on "positional").view
    let positional ← showValue (← Value.newList a.positional)
    let named ← showValue (← Value.newNamedDict a.named)
    return ⟨.fields [("positional", positional), ("named", named)], .none⟩
  | .context stack styles output => do
    let s ← stackOf stack "get"
    let styles ← styles.eval (·.styles)
    let output ← output.eval (·.output)
    let c ← ContextId.create s styles output
    let x ← c.view
    return {
      report := .fields [("styles", ← showValue x.styles), ("output", ← showValue x.output)]
      object := .context c }
  | .contextState on => do
    let x ← (← contextOf on "styles").view
    return {
      report := .fields [
        ("styles", ← showValue x.styles),
        ("output", ← showValue x.output),
        ("depth", .datum (.int (← x.stack.depth)))]
      object := .none }
  | .func name native => do resultOf (← Value.newFunc name native)
  | .cls name type => do resultOf (← Value.newClass name type)
  | .invoke use context target passing => do
    let c ← contextOf context "scopes"
    let target ← target.resolve c
    let args ← passing.resolve
    resultOf (← LexEnv.invoke use target c args)

/-! ## Steps -/

/-- The answer to a failed step. -/
def failed (e : Error) : Action (Answer × Except Error Value) := do
  return (.failed (← showError e), .error e)

mutual

/-- Performs a step: its answer, and its object or the error that it ends with. -/
def Step.run : Step → Action (Answer × Except Error Value)
  | .deed d => do
    match ← (perform d).attempt with
    | .ok r => return (.value r.report, .ok r.object)
    | .error e => failed e
  | .keep name step => do
    let (answer, outcome) ← step.run
    match outcome with
    | .ok v => Action.keep name v
    | .error _ => pure ()
    return (answer, outcome)
  | .block on scope catching steps => do
    let enclosed ← (do
      let s ← stackOf on "block"
      let (body, left) ← s.enclose fun top => do
        match scope with
        | some name => Action.keep name (.scope top)
        | none => pure ()
        Step.runAll catching steps
      return (s, body, left)).attempt
    match enclosed with
    | .error e => return (.block [] (.error (← showError e)), .error e)
    | .ok (s, body, left) =>
      let (inner, raised) : List Answer × Option Error := match body with
        | .ok ended => ended
        | .error e => ([], some e)
      let error := match left with
        | .error e => some e
        | .ok () => raised
      match error with
      | some e => return (.block inner (.error (← showError e)), .error e)
      | none =>
        let depth ← s.depth
        return (.block inner (.ok depth), .ok (whole depth))

/-- Performs steps in order, and after an error only if it is caught: the answers, and the error
that ended them. -/
def Step.runAll (catching : Bool) : List Step → Action (List Answer × Option Error)
  | [] => pure ([], none)
  | step :: steps => do
    let (answer, outcome) ← step.run
    match outcome, catching with
    | .error e, false => return ([answer], some e)
    | _, _ =>
      let (answers, error) ← Step.runAll catching steps
      return (answer :: answers, error)

end

/-- Runs a script from its first step to its last; errors do not end it. -/
def run (steps : List Step) : Action (List Answer) := do
  return (← Step.runAll true steps).1

end LexEnv.Script
