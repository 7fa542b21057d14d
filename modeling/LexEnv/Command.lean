import LexEnv.Arguments
import LexEnv.Arithmetic
import LexEnv.Context
import LexEnv.Size

/-!
# Commands

The operations of the library as data. A command names an operation with its operands and is typed
by what it answers; `Command.run` performs it. Programs (`Program.lean`) are built of commands, so a
law about every run of operations is a law about each command, carried through programs once.
-/

namespace LexEnv

/-- An operation and its operands, by what it answers. -/
inductive Command : Type → Type where
  -- Slots.
  | createSlot (kind : SlotKind) (v : Value) : Command SlotId
  | getSlot (s : SlotId) : Command Value
  | slotIsConstant (s : SlotId) : Command Bool
  | setSlot (s : SlotId) (v : Value) : Command Unit
  | setSlotDirectly (s : SlotId) (v : Value) : Command Unit
  -- Scopes.
  | createScope (bindings : Scope) : Command ScopeId
  | scopeDefineConst (c : ScopeId) (name v : Value) : Command Unit
  | scopeDefineMut (c : ScopeId) (name v : Value) : Command Unit
  | scopeBind (c : ScopeId) (name : Value) (s : SlotId) : Command Unit
  | scopeDefineFunc (c : ScopeId) (name : String) (native : Native) : Command Unit
  | scopeDefineClass (c : ScopeId) (name : String) (type : HostType) : Command Unit
  | scopeLookup (c : ScopeId) (name : Value) : Command (Option SlotId)
  | scopeEnumerate (c : ScopeId) : Command (List (Value × SlotId))
  | scopeCopy (c : ScopeId) : Command ScopeId
  -- Stacks.
  | createStack (base : Option ScopeId) (maxDepth : Int) (memoryLimit : Option Int) :
      Command StackId
  | depth (s : StackId) : Command Nat
  | active (s : StackId) : Command ScopeId
  | enter (s : StackId) : Command Unit
  | exit (s : StackId) : Command Unit
  | defineConst (s : StackId) (name v : Value) : Command Unit
  | defineMut (s : StackId) (name v : Value) : Command Unit
  | bind (s : StackId) (name : Value) (slot : SlotId) : Command Unit
  | lookup (s : StackId) (name : Value) : Command (Option SlotId)
  | get (s : StackId) (name : Value) : Command Value
  | assign (s : StackId) (name v : Value) : Command Unit
  | capture (s : StackId) (names : List Value) : Command ScopeId
  | visible (s : StackId) : Command (List (Value × SlotId))
  -- Arguments.
  | createArguments (positional : List Value) (named : List (String × Value)) :
      Command ArgumentsId
  | arguments (a : ArgumentsId) : Command Arguments
  | eat (a : ArgumentsId) : Command Value
  | expect (a : ArgumentsId) (what : String) : Command Value
  | named (a : ArgumentsId) (name : String) (default : Value) : Command Value
  | takeAllPositional (a : ArgumentsId) : Command (List Value)
  | takeAllNamed (a : ArgumentsId) : Command (List (String × Value))
  | finish (a : ArgumentsId) : Command Unit
  -- Contexts.
  | createContext (stack : StackId) (styles output : Value) : Command ContextId
  | contextStack (c : ContextId) : Command StackId
  | outputOf (c : ContextId) : Command SequenceId
  | append (lines : SequenceId) (line : Value) : Command Unit
  | defaults (c : ContextId) (name : String) : Command (Table Value)
  | defaultOf (c : ContextId) (name key : String) : Command Value
  | setDefaults (c : ContextId) (name : String) (v : Value) : Command Unit
  | addDefaults (c : ContextId) (name : String) (named : List (String × Value)) : Command Unit
  -- Values.
  | newSequence (kind : SequenceKind) (items : List Value) : Command Value
  | newDict (entries : Table Value) : Command Value
  | newFloat (x : Number.Binary64) : Command Value
  | newFunc (name : String) (native : Native) : Command Value
  | newClass (name : String) (type : HostType) : Command Value
  | written (v : Value) : Command String
  | display (v : Value) : Command String
  | typeName (v : Value) : Command String
  | scriptType (v : Value) : Command String
  | truth (v : Value) : Command Bool
  | size? (v : Value) : Command (Option Nat)
  | add (v w : Value) : Command Value
  | mul (v w : Value) : Command Value
  | atMostZero (v : Value) : Command Bool
  -- Memory.
  | sample (resident : Int) : Command Unit

namespace Command

/-- Takes a sample of the memory in use. -/
def setResident (resident : Int) : Action Unit := fun s => (.ok (), { s with resident })

/-- Performs a command. -/
def run : {α : Type} → Command α → Action α
  | _, .createSlot kind v => SlotId.create kind v
  | _, .getSlot s => s.get
  | _, .slotIsConstant s => s.isConstant
  | _, .setSlot s v => s.set v
  | _, .setSlotDirectly s v => s.setDirectly v
  | _, .createScope bindings => ScopeId.create bindings
  | _, .scopeDefineConst c name v => c.defineConst name v
  | _, .scopeDefineMut c name v => c.defineMut name v
  | _, .scopeBind c name s => c.bind name s
  | _, .scopeDefineFunc c name native => c.defineFunc name native
  | _, .scopeDefineClass c name type => c.defineClass name type
  | _, .scopeLookup c name => c.lookup name
  | _, .scopeEnumerate c => c.enumerate
  | _, .scopeCopy c => c.copy
  | _, .createStack base maxDepth memoryLimit => StackId.create base maxDepth memoryLimit
  | _, .depth s => s.depth
  | _, .active s => s.active
  | _, .enter s => s.enter
  | _, .exit s => s.exit
  | _, .defineConst s name v => s.defineConst name v
  | _, .defineMut s name v => s.defineMut name v
  | _, .bind s name slot => s.bind name slot
  | _, .lookup s name => s.lookup name
  | _, .get s name => s.get name
  | _, .assign s name v => s.assign name v
  | _, .capture s names => s.capture names
  | _, .visible s => s.visible
  | _, .createArguments positional entries => ArgumentsId.create positional entries
  | _, .arguments a => a.view
  | _, .eat a => a.eat
  | _, .expect a what => a.expect what
  | _, .named a name default => a.named name default
  | _, .takeAllPositional a => a.takeAllPositional
  | _, .takeAllNamed a => a.takeAllNamed
  | _, .finish a => a.finish
  | _, .createContext stack styles output => ContextId.create stack styles output
  | _, .contextStack c => c.stack
  | _, .outputOf c => c.output
  | _, .append lines line => lines.append line
  | _, .defaults c name => c.defaults name
  | _, .defaultOf c name key => c.defaultOf name key
  | _, .setDefaults c name v => c.setDefaults name v
  | _, .addDefaults c name entries => c.addDefaults name entries
  | _, .newSequence kind items => Value.newSequence kind items
  | _, .newDict entries => Value.newDict entries
  | _, .newFloat x => Value.newFloat x
  | _, .newFunc name native => Value.newFunc name native
  | _, .newClass name type => Value.newClass name type
  | _, .written v => Action.inspect (·.written v)
  | _, .display v => Action.inspect (·.display v)
  | _, .typeName v => Action.read (·.typeName v)
  | _, .scriptType v => Action.read (·.scriptType v)
  | _, .truth v => Action.read (·.truth v)
  | _, .size? v => Action.read (·.scriptSize? v)
  | _, .add v w => v.add w
  | _, .mul v w => v.mul w
  | _, .atMostZero v => v.atMostZero
  | _, .sample resident => setResident resident

end Command

end LexEnv
