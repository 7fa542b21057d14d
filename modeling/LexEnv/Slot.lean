import LexEnv.Action
import LexEnv.Written

/-!
# Slots

A slot holds one value and is shared by everything that binds it. Whether it can be written is a
property of the slot and not of a name: a constant slot refuses every write under whatever name it
is reached, and a bare slot has no operation for writing.

`update` replaces the value by the result of a function of it. The function may do anything,
including writes to the same slot; its result is what the slot holds afterwards.
-/

namespace LexEnv

namespace SlotId

/-- A new slot. -/
def create (kind : SlotKind) (v : Value) : Action SlotId :=
  Action.allocate (·.addSlot ⟨kind, v⟩)

/-- The value that a slot holds. -/
def get (s : SlotId) : Action Value := Action.read fun h => (h.slot s).value

/-- The kind of a slot. -/
def kind (s : SlotId) : Action SlotKind := Action.read fun h => (h.slot s).kind

/-- Whether a slot is constant; of a bare slot this cannot be said. -/
def isConstant (s : SlotId) : Action Bool := do
  match ← s.kind with
  | .mutable => return false
  | .constant => return true
  | .bare => Action.fail .undecided

/-- Puts a value into a slot, whatever its kind. -/
def store (s : SlotId) (v : Value) : Action Unit :=
  Action.modifyHeap fun h => h.setSlot s { h.slot s with value := v }

/-- Writes a value into a mutable slot. -/
def set (s : SlotId) (v : Value) : Action Unit := do
  match ← s.kind with
  | .mutable => s.store v
  | .constant =>
    Action.recordShown .rejectedWrite (·.written v)
    Action.fail (.constantWrite v)
  | .bare => Action.fail (.missingAttribute SlotKind.bare.typeName "set")

/-- Writes a value by the way that only mutable slots have. -/
def setDirectly (s : SlotId) (v : Value) : Action Unit := do
  match ← s.kind with
  | .mutable => s.store v
  | kind => Action.fail (.missingAttribute kind.typeName "_lock")

/-- Replaces the value of a mutable slot by the result of a function of it; answers that result. -/
def update (s : SlotId) (revise : Value → Action Value) : Action Value := do
  let old ← s.get
  match ← s.kind with
  | .mutable =>
    let new ← revise old
    s.store new
    return new
  | .constant =>
    Action.recordShown .rejectedUpdate (·.written old)
    Action.fail (.constantWrite old)
  | .bare => Action.fail (.missingAttribute SlotKind.bare.typeName "update")

end SlotId

end LexEnv
