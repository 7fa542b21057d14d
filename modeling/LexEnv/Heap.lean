import LexEnv.Table

/-!
# The heap

All objects that can be shared or change, each kind in an array of its own. An identifier is a
position in its array; arrays only grow, so a new object is never one that was there before. Reading
an identifier that was never handed out gives an empty object.

Each kind has one accessor, one `add` and, where its objects change, one `set`; the lemmas say what
the accessor sees after each of them.
-/

namespace LexEnv

/-! ## Objects -/

/-- The kinds of slots: a mutable one can be written, a constant one refuses writes, and a bare one
has no way to be written at all. -/
inductive SlotKind where
  | mutable | constant | bare
deriving DecidableEq, Repr

instance : Inhabited SlotKind := ⟨.bare⟩

/-- A storage cell. -/
structure Slot where
  kind : SlotKind
  value : Value
deriving DecidableEq, Repr, Inhabited

/-- A scope binds names to slots. A name is a text as a rule, but any key will do. -/
abbrev Scope := Table SlotId

/-- A stack of scopes: the active one, the suspended ones from the innermost outwards, and an
optional base that is consulted last and never defined on. -/
structure Stack where
  active : ScopeId
  suspended : List ScopeId
  base : Option ScopeId
  maxDepth : Int
  memoryLimit : Option Int
deriving DecidableEq, Repr

instance : Inhabited Stack := ⟨⟨⟨0⟩, [], none, 0, none⟩⟩

/-- The arguments of a call that have not been read yet. -/
structure Arguments where
  positional : List Value
  named : List (String × Value)
deriving DecidableEq, Repr, Inhabited

/-- What a native function can reach: the scopes, the style map and the output of its evaluation. -/
structure Context where
  stack : StackId
  styles : Value
  output : Value
deriving DecidableEq, Repr

instance : Inhabited Context := ⟨⟨⟨0⟩, .none, .none⟩⟩

/-- All objects. -/
structure Heap where
  slots : Array Slot
  scopes : Array Scope
  scopeStacks : Array Stack
  sequences : Array (List Value)
  /-- A set is a table with nothing under its keys. -/
  sets : Array (Table Unit)
  dicts : Array (Table Value)
  arguments : Array Arguments
  contexts : Array Context
  /-- The next serial number; numbers start at 1. -/
  serial : Nat

namespace Heap

/-- The heap without objects. -/
def empty : Heap := ⟨#[], #[], #[], #[], #[], #[], #[], #[], 1⟩

instance : Inhabited Heap := ⟨empty⟩

/-- The number of objects. -/
def size (h : Heap) : Nat :=
  h.slots.size + h.scopes.size + h.scopeStacks.size + h.sequences.size + h.sets.size
    + h.dicts.size + h.arguments.size + h.contexts.size

/-! ## Reading -/

/-- A slot. -/
def slot (h : Heap) (s : SlotId) : Slot := h.slots[s.index]?.getD default

/-- A scope. -/
def scope (h : Heap) (c : ScopeId) : Scope := h.scopes[c.index]?.getD default

/-- A stack. -/
def stack (h : Heap) (s : StackId) : Stack := h.scopeStacks[s.index]?.getD default

/-- The items of a list or tuple. -/
def sequence (h : Heap) (c : SequenceId) : List Value := h.sequences[c.index]?.getD []

/-- The elements of a set. -/
def set (h : Heap) (c : SetId) : Table Unit := h.sets[c.index]?.getD .empty

/-- The entries of a dictionary. -/
def dict (h : Heap) (d : DictId) : Table Value := h.dicts[d.index]?.getD .empty

/-- The unread arguments of a call. -/
def args (h : Heap) (a : ArgumentsId) : Arguments := h.arguments[a.index]?.getD default

/-- A context. -/
def context (h : Heap) (c : ContextId) : Context := h.contexts[c.index]?.getD default

/-! ## Adding -/

/-- Adds a slot. -/
def addSlot (h : Heap) (s : Slot) : SlotId × Heap :=
  (⟨h.slots.size⟩, { h with slots := h.slots.push s })

/-- Adds a scope. -/
def addScope (h : Heap) (c : Scope) : ScopeId × Heap :=
  (⟨h.scopes.size⟩, { h with scopes := h.scopes.push c })

/-- Adds a stack. -/
def addStack (h : Heap) (s : Stack) : StackId × Heap :=
  (⟨h.scopeStacks.size⟩, { h with scopeStacks := h.scopeStacks.push s })

/-- Adds a list or tuple. -/
def addSequence (h : Heap) (items : List Value) : SequenceId × Heap :=
  (⟨h.sequences.size⟩, { h with sequences := h.sequences.push items })

/-- Adds a set. -/
def addSet (h : Heap) (elements : Table Unit) : SetId × Heap :=
  (⟨h.sets.size⟩, { h with sets := h.sets.push elements })

/-- Adds a dictionary. -/
def addDict (h : Heap) (entries : Table Value) : DictId × Heap :=
  (⟨h.dicts.size⟩, { h with dicts := h.dicts.push entries })

/-- Adds the arguments of a call. -/
def addArguments (h : Heap) (a : Arguments) : ArgumentsId × Heap :=
  (⟨h.arguments.size⟩, { h with arguments := h.arguments.push a })

/-- Adds a context. -/
def addContext (h : Heap) (c : Context) : ContextId × Heap :=
  (⟨h.contexts.size⟩, { h with contexts := h.contexts.push c })

/-- Hands out a serial number. -/
def addSerial (h : Heap) : Nat × Heap := (h.serial, { h with serial := h.serial + 1 })

/-! ## Changing -/

/-- Changes what a slot holds. -/
def setSlot (h : Heap) (s : SlotId) (x : Slot) : Heap :=
  { h with slots := h.slots.setIfInBounds s.index x }

/-- Changes what a scope binds. -/
def setScope (h : Heap) (c : ScopeId) (x : Scope) : Heap :=
  { h with scopes := h.scopes.setIfInBounds c.index x }

/-- Changes a stack. -/
def setStack (h : Heap) (s : StackId) (x : Stack) : Heap :=
  { h with scopeStacks := h.scopeStacks.setIfInBounds s.index x }

/-- Changes the items of a list. -/
def setSequence (h : Heap) (c : SequenceId) (items : List Value) : Heap :=
  { h with sequences := h.sequences.setIfInBounds c.index items }

/-- Changes the elements of a set. -/
def setSet (h : Heap) (c : SetId) (elements : Table Unit) : Heap :=
  { h with sets := h.sets.setIfInBounds c.index elements }

/-- Changes the entries of a dictionary. -/
def setDict (h : Heap) (d : DictId) (entries : Table Value) : Heap :=
  { h with dicts := h.dicts.setIfInBounds d.index entries }

/-- Changes the unread arguments of a call. -/
def setArguments (h : Heap) (a : ArgumentsId) (x : Arguments) : Heap :=
  { h with arguments := h.arguments.setIfInBounds a.index x }

/-! ## Reading after a change -/

theorem slot_setSlot (h : Heap) (s t : SlotId) (x : Slot) (ht : t.index < h.slots.size) :
    (h.setSlot s x).slot t = if t = s then x else h.slot t := by
  obtain ⟨i⟩ := s
  obtain ⟨j⟩ := t
  by_cases e : j = i
  · subst e
    simp_all [slot, setSlot]
  · simp [slot, setSlot, e, Ne.symm e]

theorem slot_setSlot_of_ne (h : Heap) {s t : SlotId} (x : Slot) (ne : t ≠ s) :
    (h.setSlot s x).slot t = h.slot t := by
  obtain ⟨i⟩ := s
  obtain ⟨j⟩ := t
  have : i ≠ j := fun e => ne (e ▸ rfl)
  simp [slot, setSlot, this]

theorem slot_addSlot_new (h : Heap) (x : Slot) {t : SlotId} (new : t.index = h.slots.size) :
    (h.addSlot x).2.slot t = x := by
  simp [slot, addSlot, new]

theorem slot_addSlot_of_lt (h : Heap) (x : Slot) {t : SlotId} (old : t.index < h.slots.size) :
    (h.addSlot x).2.slot t = h.slot t := by
  simp [slot, addSlot, Array.getElem?_push, Nat.ne_of_lt old]

theorem scope_addScope_new (h : Heap) (x : Scope) {c : ScopeId} (new : c.index = h.scopes.size) :
    (h.addScope x).2.scope c = x := by
  simp [scope, addScope, new]

theorem scope_addScope_of_lt (h : Heap) (x : Scope) {c : ScopeId} (old : c.index < h.scopes.size) :
    (h.addScope x).2.scope c = h.scope c := by
  simp [scope, addScope, Array.getElem?_push, Nat.ne_of_lt old]

theorem stack_addStack_new (h : Heap) (x : Stack) {s : StackId} (new : s.index = h.scopeStacks.size) :
    (h.addStack x).2.stack s = x := by
  simp [stack, addStack, new]

theorem stack_addStack_of_lt (h : Heap) (x : Stack) {s : StackId} (old : s.index < h.scopeStacks.size) :
    (h.addStack x).2.stack s = h.stack s := by
  simp [stack, addStack, Array.getElem?_push, Nat.ne_of_lt old]

theorem sequence_addSequence_new (h : Heap) (x : List Value) {c : SequenceId}
    (new : c.index = h.sequences.size) : (h.addSequence x).2.sequence c = x := by
  simp [sequence, addSequence, new]

theorem sequence_addSequence_of_lt (h : Heap) (x : List Value) {c : SequenceId}
    (old : c.index < h.sequences.size) : (h.addSequence x).2.sequence c = h.sequence c := by
  simp [sequence, addSequence, Array.getElem?_push, Nat.ne_of_lt old]

theorem set_addSet_new (h : Heap) (x : Table Unit) {c : SetId} (new : c.index = h.sets.size) :
    (h.addSet x).2.set c = x := by
  simp [set, addSet, new]

theorem set_addSet_of_lt (h : Heap) (x : Table Unit) {c : SetId} (old : c.index < h.sets.size) :
    (h.addSet x).2.set c = h.set c := by
  simp [set, addSet, Array.getElem?_push, Nat.ne_of_lt old]

theorem scope_setScope (h : Heap) (c d : ScopeId) (x : Scope) (hd : d.index < h.scopes.size) :
    (h.setScope c x).scope d = if d = c then x else h.scope d := by
  obtain ⟨i⟩ := c
  obtain ⟨j⟩ := d
  by_cases e : j = i
  · subst e
    simp_all [scope, setScope]
  · simp [scope, setScope, e, Ne.symm e]

theorem scope_setScope_of_ne (h : Heap) {c d : ScopeId} (x : Scope) (ne : d ≠ c) :
    (h.setScope c x).scope d = h.scope d := by
  obtain ⟨i⟩ := c
  obtain ⟨j⟩ := d
  have : i ≠ j := fun e => ne (e ▸ rfl)
  simp [scope, setScope, this]

@[simp] theorem slot_setScope (h : Heap) (c : ScopeId) (x : Scope) (t : SlotId) :
    (h.setScope c x).slot t = h.slot t := rfl

@[simp] theorem stack_setScope (h : Heap) (c : ScopeId) (x : Scope) (s : StackId) :
    (h.setScope c x).stack s = h.stack s := rfl

@[simp] theorem size_scopes_setScope (h : Heap) (c : ScopeId) (x : Scope) :
    (h.setScope c x).scopes.size = h.scopes.size := Array.size_setIfInBounds

@[simp] theorem setScope_setScope (h : Heap) (c : ScopeId) (x y : Scope) :
    (h.setScope c x).setScope c y = h.setScope c y := by
  simp [setScope]

@[simp] theorem setScope_scope (h : Heap) (c : ScopeId) : h.setScope c (h.scope c) = h := by
  have same : h.scopes.setIfInBounds c.index (h.scope c) = h.scopes := by
    refine Array.ext (Array.size_setIfInBounds) fun i _ hi => ?_
    rw [Array.getElem_setIfInBounds hi]
    split
    · next eq =>
      subst eq
      simp [scope, hi]
    · rfl
  rw [setScope, same]

theorem stack_setStack (h : Heap) (s t : StackId) (x : Stack) (ht : t.index < h.scopeStacks.size) :
    (h.setStack s x).stack t = if t = s then x else h.stack t := by
  obtain ⟨i⟩ := s
  obtain ⟨j⟩ := t
  by_cases e : j = i
  · subst e
    simp_all [stack, setStack]
  · simp [stack, setStack, e, Ne.symm e]

end Heap

end LexEnv
