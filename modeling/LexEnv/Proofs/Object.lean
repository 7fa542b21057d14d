import LexEnv.Heap

/-!
# Objects and their cells

An object of a heap, whatever its kind, is an `Object`, and what it holds is its `Cell`. A serial
number is an object too: it has no content, but it tells functions, classes and numbers apart.

An operation on a heap changes one object (`Heap.Changes`) or adds one (`Heap.Adds`), and all other
objects hold what they held. Laws about what an operation leaves alone are stated for these two and
not for each kind of objects.
-/

namespace LexEnv

/-- Something with an identity. -/
inductive Object where
  | slot (s : SlotId)
  | scope (c : ScopeId)
  | stack (s : StackId)
  | sequence (c : SequenceId)
  | set (c : SetId)
  | dict (d : DictId)
  | arguments (a : ArgumentsId)
  | context (c : ContextId)
  | serial (n : Nat)
deriving DecidableEq, Repr

/-- What an object holds. -/
inductive Cell where
  | slot (x : Slot)
  | scope (x : Scope)
  | stack (x : Stack)
  | sequence (items : List Value)
  | set (x : Table Unit)
  | dict (x : Table Value)
  | arguments (x : Arguments)
  | context (x : Context)
  | serial

/-! ## Parts -/

/-- A serial number as an object, unless it is the one that identifies nothing. -/
def Object.ofSerial (n : Nat) : List Object := if n = 0 then [] else [.serial n]

/-- The objects that a value refers to by itself. -/
def Value.objects : Value → List Object
  | .none | .bool _ | .int _ | .text _ | .bytes _ => []
  | .float _ serial => Object.ofSerial serial
  | .sequence _ c => [.sequence c]
  | .set _ c => [.set c]
  | .dict d => [.dict d]
  | .func f => Object.ofSerial f.serial
  | .cls c => Object.ofSerial c.serial
  | .slot s => [.slot s]
  | .scope c => [.scope c]
  | .stack s => [.stack s]
  | .arguments a => [.arguments a]
  | .context c => [.context c]

/-- The objects that a cell refers to. -/
def Cell.parts : Cell → List Object
  | .slot x => x.value.objects
  | .scope x => x.entries.flatMap fun e => .slot e.2 :: e.1.value.objects
  | .stack x => (x.active :: x.suspended ++ x.base.toList).map .scope
  | .sequence items => items.flatMap Value.objects
  | .set x => x.entries.flatMap fun e => e.1.value.objects
  | .dict x => x.entries.flatMap fun e => e.1.value.objects ++ e.2.objects
  | .arguments x => x.positional.flatMap Value.objects ++ x.named.flatMap fun e => e.2.objects
  | .context x => .stack x.stack :: (x.styles.objects ++ x.output.objects)
  | .serial => []

namespace Heap

/-! ## The objects of a heap -/

/-- Whether an object exists. -/
def Has (h : Heap) : Object → Prop
  | .slot s => s.index < h.slots.size
  | .scope c => c.index < h.scopes.size
  | .stack s => s.index < h.scopeStacks.size
  | .sequence c => c.index < h.sequences.size
  | .set c => c.index < h.sets.size
  | .dict d => d.index < h.dicts.size
  | .arguments a => a.index < h.arguments.size
  | .context c => c.index < h.contexts.size
  | .serial n => n < h.serial

instance (h : Heap) (o : Object) : Decidable (h.Has o) := by
  cases o <;> exact Nat.decLt _ _

/-- What an object holds. -/
def cell (h : Heap) : Object → Cell
  | .slot s => .slot (h.slot s)
  | .scope c => .scope (h.scope c)
  | .stack s => .stack (h.stack s)
  | .sequence c => .sequence (h.sequence c)
  | .set c => .set (h.set c)
  | .dict d => .dict (h.dict d)
  | .arguments a => .arguments (h.args a)
  | .context c => .context (h.context c)
  | .serial _ => .serial

/-- A heap after one of its objects was changed. -/
structure Changes (h : Heap) (o : Object) (h' : Heap) : Prop where
  has : ∀ x, h'.Has x ↔ h.Has x
  cell : ∀ x, x ≠ o → h'.cell x = h.cell x

/-- A heap after an object was added. -/
structure Adds (h : Heap) (o : Object) (h' : Heap) : Prop where
  new : ¬h.Has o
  has : ∀ x, h'.Has x ↔ h.Has x ∨ x = o
  cell : ∀ x, x ≠ o → h'.cell x = h.cell x

/-! ## Arrays of objects -/

section

variable {α : Type} {i j : Nat}

theorem getD_setIfInBounds_of_ne (a : Array α) (x d : α) (ne : j ≠ i) :
    (a.setIfInBounds i x)[j]?.getD d = a[j]?.getD d := by
  rw [Array.getElem?_setIfInBounds_ne (Ne.symm ne)]

theorem getD_setIfInBounds_self (a : Array α) (x d : α) (inside : i < a.size) :
    (a.setIfInBounds i x)[i]?.getD d = x := by
  rw [Array.getElem?_setIfInBounds_self_of_lt inside, Option.getD_some]

theorem getD_push_of_ne (a : Array α) (x d : α) (ne : j ≠ a.size) :
    (a.push x)[j]?.getD d = a[j]?.getD d := by
  rw [Array.getElem?_push, if_neg ne]

end

/-! ## Changing an object -/

section

variable (h : Heap)

theorem changes_setSlot (s : SlotId) (x : Slot) : h.Changes (.slot s) (h.setSlot s x) where
  has o := by
    cases o with
    | slot t => simp [Has, setSlot]
    | _ => rfl
  cell o ne := by
    cases o with
    | slot t => exact congrArg Cell.slot (h.slot_setSlot_of_ne x fun e => ne (congrArg _ e))
    | _ => rfl

theorem changes_setScope (c : ScopeId) (x : Scope) : h.Changes (.scope c) (h.setScope c x) where
  has o := by
    cases o with
    | scope d => simp [Has, setScope]
    | _ => rfl
  cell o ne := by
    cases o with
    | scope d => exact congrArg Cell.scope (h.scope_setScope_of_ne x fun e => ne (congrArg _ e))
    | _ => rfl

theorem changes_setStack (s : StackId) (x : Stack) : h.Changes (.stack s) (h.setStack s x) where
  has o := by
    cases o with
    | stack t => simp [Has, setStack]
    | _ => rfl
  cell o ne := by
    cases o with
    | stack t =>
      refine congrArg Cell.stack (getD_setIfInBounds_of_ne _ _ _ fun same => ne ?_)
      exact congrArg (Object.stack ⟨·⟩) same
    | _ => rfl

theorem changes_setSequence (c : SequenceId) (x : List Value) :
    h.Changes (.sequence c) (h.setSequence c x) where
  has o := by
    cases o with
    | sequence d => simp [Has, setSequence]
    | _ => rfl
  cell o ne := by
    cases o with
    | sequence d =>
      refine congrArg Cell.sequence (getD_setIfInBounds_of_ne _ _ _ fun same => ne ?_)
      exact congrArg (Object.sequence ⟨·⟩) same
    | _ => rfl

theorem changes_setSet (c : SetId) (x : Table Unit) : h.Changes (.set c) (h.setSet c x) where
  has o := by
    cases o with
    | set d => simp [Has, setSet]
    | _ => rfl
  cell o ne := by
    cases o with
    | set d =>
      refine congrArg Cell.set (getD_setIfInBounds_of_ne _ _ _ fun same => ne ?_)
      exact congrArg (Object.set ⟨·⟩) same
    | _ => rfl

theorem changes_setDict (d : DictId) (x : Table Value) : h.Changes (.dict d) (h.setDict d x) where
  has o := by
    cases o with
    | dict e => simp [Has, setDict]
    | _ => rfl
  cell o ne := by
    cases o with
    | dict e =>
      refine congrArg Cell.dict (getD_setIfInBounds_of_ne _ _ _ fun same => ne ?_)
      exact congrArg (Object.dict ⟨·⟩) same
    | _ => rfl

theorem changes_setArguments (a : ArgumentsId) (x : Arguments) :
    h.Changes (.arguments a) (h.setArguments a x) where
  has o := by
    cases o with
    | arguments b => simp [Has, setArguments]
    | _ => rfl
  cell o ne := by
    cases o with
    | arguments b =>
      refine congrArg Cell.arguments (getD_setIfInBounds_of_ne _ _ _ fun same => ne ?_)
      exact congrArg (Object.arguments ⟨·⟩) same
    | _ => rfl

end

/-! ### What the changed object holds -/

section

variable {h : Heap}

theorem cell_setSlot {s : SlotId} (has : h.Has (.slot s)) (x : Slot) :
    (h.setSlot s x).cell (.slot s) = .slot x :=
  congrArg Cell.slot (getD_setIfInBounds_self _ _ _ has)

theorem cell_setScope {c : ScopeId} (has : h.Has (.scope c)) (x : Scope) :
    (h.setScope c x).cell (.scope c) = .scope x :=
  congrArg Cell.scope (getD_setIfInBounds_self _ _ _ has)

theorem cell_setStack {s : StackId} (has : h.Has (.stack s)) (x : Stack) :
    (h.setStack s x).cell (.stack s) = .stack x :=
  congrArg Cell.stack (getD_setIfInBounds_self _ _ _ has)

theorem cell_setSequence {c : SequenceId} (has : h.Has (.sequence c)) (x : List Value) :
    (h.setSequence c x).cell (.sequence c) = .sequence x :=
  congrArg Cell.sequence (getD_setIfInBounds_self _ _ _ has)

theorem cell_setSet {c : SetId} (has : h.Has (.set c)) (x : Table Unit) :
    (h.setSet c x).cell (.set c) = .set x :=
  congrArg Cell.set (getD_setIfInBounds_self _ _ _ has)

theorem cell_setDict {d : DictId} (has : h.Has (.dict d)) (x : Table Value) :
    (h.setDict d x).cell (.dict d) = .dict x :=
  congrArg Cell.dict (getD_setIfInBounds_self _ _ _ has)

theorem cell_setArguments {a : ArgumentsId} (has : h.Has (.arguments a)) (x : Arguments) :
    (h.setArguments a x).cell (.arguments a) = .arguments x :=
  congrArg Cell.arguments (getD_setIfInBounds_self _ _ _ has)

end

/-! ## Adding an object -/

section

variable (h : Heap)

theorem adds_addSlot (x : Slot) : h.Adds (.slot ⟨h.slots.size⟩) (h.addSlot x).2 where
  new := Nat.lt_irrefl _
  has o := by
    cases o with
    | slot t => simpa [Has, addSlot, SlotId.ext_iff] using Nat.lt_succ_iff_lt_or_eq
    | _ => simp [Has, addSlot]
  cell o ne := by
    cases o with
    | slot t =>
      refine congrArg Cell.slot (getD_push_of_ne _ _ _ fun same => ne ?_)
      exact congrArg (Object.slot ⟨·⟩) same
    | _ => rfl

theorem adds_addScope (x : Scope) : h.Adds (.scope ⟨h.scopes.size⟩) (h.addScope x).2 where
  new := Nat.lt_irrefl _
  has o := by
    cases o with
    | scope t => simpa [Has, addScope, ScopeId.ext_iff] using Nat.lt_succ_iff_lt_or_eq
    | _ => simp [Has, addScope]
  cell o ne := by
    cases o with
    | scope t =>
      refine congrArg Cell.scope (getD_push_of_ne _ _ _ fun same => ne ?_)
      exact congrArg (Object.scope ⟨·⟩) same
    | _ => rfl

theorem adds_addStack (x : Stack) : h.Adds (.stack ⟨h.scopeStacks.size⟩) (h.addStack x).2 where
  new := Nat.lt_irrefl _
  has o := by
    cases o with
    | stack s =>
      obtain ⟨i⟩ := s
      simpa [Has, addStack] using Nat.lt_succ_iff_lt_or_eq
    | _ => simp [Has, addStack]
  cell o ne := by
    cases o with
    | stack s =>
      refine congrArg Cell.stack (getD_push_of_ne _ _ _ fun same => ne ?_)
      exact congrArg (Object.stack ⟨·⟩) same
    | _ => rfl

theorem adds_addSequence (x : List Value) :
    h.Adds (.sequence ⟨h.sequences.size⟩) (h.addSequence x).2 where
  new := Nat.lt_irrefl _
  has o := by
    cases o with
    | sequence c =>
      obtain ⟨i⟩ := c
      simpa [Has, addSequence] using Nat.lt_succ_iff_lt_or_eq
    | _ => simp [Has, addSequence]
  cell o ne := by
    cases o with
    | sequence c =>
      refine congrArg Cell.sequence (getD_push_of_ne _ _ _ fun same => ne ?_)
      exact congrArg (Object.sequence ⟨·⟩) same
    | _ => rfl

theorem adds_addSet (x : Table Unit) : h.Adds (.set ⟨h.sets.size⟩) (h.addSet x).2 where
  new := Nat.lt_irrefl _
  has o := by
    cases o with
    | set c =>
      obtain ⟨i⟩ := c
      simpa [Has, addSet] using Nat.lt_succ_iff_lt_or_eq
    | _ => simp [Has, addSet]
  cell o ne := by
    cases o with
    | set c =>
      refine congrArg Cell.set (getD_push_of_ne _ _ _ fun same => ne ?_)
      exact congrArg (Object.set ⟨·⟩) same
    | _ => rfl

theorem adds_addDict (x : Table Value) : h.Adds (.dict ⟨h.dicts.size⟩) (h.addDict x).2 where
  new := Nat.lt_irrefl _
  has o := by
    cases o with
    | dict d =>
      obtain ⟨i⟩ := d
      simpa [Has, addDict] using Nat.lt_succ_iff_lt_or_eq
    | _ => simp [Has, addDict]
  cell o ne := by
    cases o with
    | dict d =>
      refine congrArg Cell.dict (getD_push_of_ne _ _ _ fun same => ne ?_)
      exact congrArg (Object.dict ⟨·⟩) same
    | _ => rfl

theorem adds_addArguments (x : Arguments) :
    h.Adds (.arguments ⟨h.arguments.size⟩) (h.addArguments x).2 where
  new := Nat.lt_irrefl _
  has o := by
    cases o with
    | arguments a =>
      obtain ⟨i⟩ := a
      simpa [Has, addArguments] using Nat.lt_succ_iff_lt_or_eq
    | _ => simp [Has, addArguments]
  cell o ne := by
    cases o with
    | arguments a =>
      refine congrArg Cell.arguments (getD_push_of_ne _ _ _ fun same => ne ?_)
      exact congrArg (Object.arguments ⟨·⟩) same
    | _ => rfl

theorem adds_addContext (x : Context) :
    h.Adds (.context ⟨h.contexts.size⟩) (h.addContext x).2 where
  new := Nat.lt_irrefl _
  has o := by
    cases o with
    | context c =>
      obtain ⟨i⟩ := c
      simpa [Has, addContext] using Nat.lt_succ_iff_lt_or_eq
    | _ => simp [Has, addContext]
  cell o ne := by
    cases o with
    | context c =>
      refine congrArg Cell.context (getD_push_of_ne _ _ _ fun same => ne ?_)
      exact congrArg (Object.context ⟨·⟩) same
    | _ => rfl

theorem adds_addSerial : h.Adds (.serial h.serial) h.addSerial.2 where
  new := Nat.lt_irrefl _
  has o := by
    cases o with
    | serial n => simpa [Has, addSerial] using Nat.lt_succ_iff_lt_or_eq
    | _ => simp [Has, addSerial]
  cell o _ := by cases o <;> rfl

theorem cell_addSlot (x : Slot) : (h.addSlot x).2.cell (.slot ⟨h.slots.size⟩) = .slot x :=
  congrArg Cell.slot (h.slot_addSlot_new x rfl)

theorem cell_addScope (x : Scope) : (h.addScope x).2.cell (.scope ⟨h.scopes.size⟩) = .scope x :=
  congrArg Cell.scope (h.scope_addScope_new x rfl)

theorem cell_addSequence (x : List Value) :
    (h.addSequence x).2.cell (.sequence ⟨h.sequences.size⟩) = .sequence x :=
  congrArg Cell.sequence (h.sequence_addSequence_new x rfl)

theorem cell_addDict (x : Table Value) : (h.addDict x).2.cell (.dict ⟨h.dicts.size⟩) = .dict x := by
  simp [cell, addDict, dict]

theorem cell_addArguments (x : Arguments) :
    (h.addArguments x).2.cell (.arguments ⟨h.arguments.size⟩) = .arguments x := by
  simp [cell, addArguments, args]

end

end Heap

end LexEnv
