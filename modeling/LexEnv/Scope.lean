import LexEnv.Creation

/-!
# Scopes

A scope binds names to slots. A definition binds its name to a new slot, or to a slot given to it,
and leaves the slot that the name was bound to as it is. Scopes are listed in ascending order of
names, whatever the order of their definitions.

A name is a text as a rule. Any other value with a hash will do as well; a value without one is
refused, and names without an order cannot be listed.
-/

namespace LexEnv

namespace ScopeId

/-- A new scope with bindings. -/
def create (bindings : Scope) : Action ScopeId := Action.allocate (·.addScope bindings)

/-- The bindings of a scope. -/
def bindings (c : ScopeId) : Action Scope := Action.read (·.scope c)

/-- Binds a key to a slot. -/
def bindKey (c : ScopeId) (key : Key) (s : SlotId) : Action Unit := do
  let bindings ← Action.inspect fun h => h.put key s (h.scope c)
  Action.modifyHeap (·.setScope c bindings)

/-- Binds a name to a slot. -/
def bind (c : ScopeId) (name : Value) (s : SlotId) : Action Unit := do
  c.bindKey (← Action.inspect (·.key name)) s

/-- Binds a name to a new slot. -/
def define (c : ScopeId) (kind : SlotKind) (name v : Value) : Action Unit := do
  let key ← Action.inspect (·.key name)
  c.bindKey key (← Action.allocate (·.addSlot ⟨kind, v⟩))

/-- Binds a name to a new constant slot. -/
def defineConst (c : ScopeId) (name v : Value) : Action Unit := c.define .constant name v

/-- Binds a name to a new mutable slot. -/
def defineMut (c : ScopeId) (name v : Value) : Action Unit := c.define .mutable name v

/-- Binds a name to a constant slot with a function of that name. -/
def defineFunc (c : ScopeId) (name : String) (native : Native) : Action Unit := do
  c.defineConst (.text name) (← Value.newFunc name native)

/-- Binds a name to a constant slot with a class of that name. -/
def defineClass (c : ScopeId) (name : String) (type : HostType) : Action Unit := do
  c.defineConst (.text name) (← Value.newClass name type)

/-- The slot that a name is bound to. -/
def lookup (c : ScopeId) (name : Value) : Action (Option SlotId) :=
  Action.inspect fun h => do h.find? (← h.key name) (h.scope c)

/-- The names with their slots, in ascending order of names. -/
def enumerate (c : ScopeId) : Action (List (Value × SlotId)) :=
  Action.inspect fun h => h.enumerate (h.scope c)

/-- The names in ascending order. -/
def names (c : ScopeId) : Action (List Value) := do return (← c.enumerate).map (·.1)

/-- A new scope that binds the same slots. -/
def copy (c : ScopeId) : Action ScopeId := do create (← c.bindings)

end ScopeId

end LexEnv
