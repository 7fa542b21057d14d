import LexEnv.Proofs.Environment

/-!
# Events

What an operation does to slots, scopes and stacks, reduced to eight kinds of events. Operations
that only read, or fail, have no event; an assignment that succeeds is the writing of one slot; a
definition creates a slot and binds it. The events of a run are listed in the order in which they
happen, and the list tells everything about the environment that the run leaves
(`Heap.Evolves`): replaying it gives that environment.

Laws about runs are then laws about eight kinds of events. What one event does to an object that is
there already is said by `slot_act`, `scope_act` and `stack_act`; `Heap.Along` says that
something holds at every event of a list, and `Heap.Along.invariant` carries an invariant through.
-/

namespace LexEnv

/-! ## Stacks that grow and shrink -/

namespace Stack

/-- The scopes that a stack made itself, from the innermost outwards. -/
def own (st : Stack) : List ScopeId := st.active :: st.suspended

/-- A stack with a further scope activated. -/
def push (st : Stack) (c : ScopeId) : Stack :=
  { st with active := c, suspended := st.active :: st.suspended }

/-- A stack without its active scope. -/
def pop (st : Stack) : Stack :=
  match st.suspended with
  | [] => st
  | outer :: rest => { st with active := outer, suspended := rest }

@[simp] theorem pop_push (st : Stack) (c : ScopeId) : (st.push c).pop = st := rfl

@[simp] theorem depth_push (st : Stack) (c : ScopeId) : (st.push c).depth = st.depth + 1 := rfl

theorem pop_of_cons {st : Stack} {outer : ScopeId} {rest : List ScopeId}
    (h : st.suspended = outer :: rest) :
    st.pop = { st with active := outer, suspended := rest } := by
  simp [pop, h]

@[simp] theorem base_pop (st : Stack) : st.pop.base = st.base := by
  unfold pop
  split <;> rfl

theorem own_pop {st : Stack} (h : st.suspended ≠ []) : st.pop.own = st.suspended := by
  unfold pop own
  split
  · next empty => exact absurd empty h
  · next full => rw [full]

theorem depth_pop (st : Stack) : st.pop.depth = st.depth - 1 := by
  unfold pop depth
  split
  · next empty => simp [empty]
  · next full => simp [full]

theorem mem_chain {st : Stack} {c : ScopeId} : c ∈ st.chain ↔ c ∈ st.own ∨ st.base = some c := by
  simp [chain, own, Option.mem_toList, or_assoc]

end Stack

/-! ## Events -/

/-- How a scope of a stack is entered or left: on its own, or by a block. -/
inductive Passage where
  | bare | block
deriving DecidableEq, Repr

/-- What can happen to slots, scopes and stacks. -/
inductive Event where
  /-- A slot was made. -/
  | created (t : SlotId) (x : Slot)
  /-- A value was put into a slot. -/
  | wrote (t : SlotId) (v : Value)
  /-- A scope was made with some bindings. -/
  | opened (c : ScopeId) (bindings : Scope)
  /-- A scope was made with the bindings of another one. -/
  | copied (c copy : ScopeId)
  /-- A key was bound to a slot in a scope, through a stack or in the scope itself; the scope has
  the given bindings now. -/
  | bound (via : Option StackId) (c : ScopeId) (key : Key) (t : SlotId) (bindings : Scope)
  /-- A stack was made. -/
  | founded (s : StackId) (base : Option ScopeId) (maxDepth : Int) (memoryLimit : Option Int)
  | entered (passage : Passage) (s : StackId)
  | exited (passage : Passage) (s : StackId)
deriving DecidableEq

namespace Event

/-- The value that an event puts into a slot, if it writes that slot. -/
def written? (t : SlotId) : Event → Option Value
  | .wrote t' v => if t' = t then some v else none
  | _ => none

/-- The bindings that an event gives to a scope, if it binds a key there. -/
def rebound? (c : ScopeId) : Event → Option Scope
  | .bound _ c' _ _ bindings => if c' = c then some bindings else none
  | _ => none

/-- Whether an event is the entering of a scope of a stack. -/
def enters (s : StackId) : Event → Bool
  | .entered _ s' => s' = s
  | _ => false

/-- Whether an event is the leaving of a scope of a stack. -/
def exits (s : StackId) : Event → Bool
  | .exited _ s' => s' = s
  | _ => false

/-- What an event makes of a heap. -/
def act (h : Heap) : Event → Heap
  | .created _ x => (h.addSlot x).2
  | .wrote t v => h.setSlot t { h.slot t with value := v }
  | .opened _ bindings => (h.addScope bindings).2
  | .copied c _ => (h.addScope (h.scope c)).2
  | .bound _ c _ _ bindings => h.setScope c bindings
  | .founded _ base maxDepth memoryLimit =>
    let (active, h) := h.addScope .empty
    (h.addStack ⟨active, [], base, maxDepth, memoryLimit⟩).2
  | .entered _ s =>
    let st := h.stack s
    let (fresh, h) := h.addScope .empty
    h.setStack s (st.push fresh)
  | .exited _ s => h.setStack s (h.stack s).pop

/-- What is known of a heap when an event happens in it. -/
def Valid (h : Heap) : Event → Prop
  | .created t _ => t.index = h.slots.size
  | .wrote t _ => (h.slot t).kind = .mutable
  | .opened c _ => c.index = h.scopes.size
  | .copied _ copy => copy.index = h.scopes.size
  | .bound via c key t bindings =>
    (∀ s, via = some s → c = (h.stack s).active) ∧
    (∀ e ∈ bindings.entries, e.2 = t ∨ ∃ k, (k, e.2) ∈ (h.scope c).entries) ∧
    (∀ name, key = .text name → bindings = (h.scope c).insert name t)
  | .founded s _ _ _ => s.index = h.scopeStacks.size
  | .entered _ s => ((h.stack s).depth : Int) < (h.stack s).maxDepth
  | .exited _ s => (h.stack s).suspended ≠ []

theorem environment_act (e : Event) (h : Heap) :
    (e.act h).environment = e.act h.environment := by
  cases e <;> rfl

theorem valid_environment (e : Event) (h : Heap) : e.Valid h.environment ↔ e.Valid h := by
  cases e <;> rfl

end Event

/-! ## Objects that exist -/

namespace Heap

variable {h : Heap}

theorem exists_of_mutable {t : SlotId} (hk : (h.slot t).kind = .mutable) :
    t.index < h.slots.size := by
  refine Nat.lt_of_not_le fun out => ?_
  have : h.slot t = default := by simp [slot, Array.getElem?_eq_none out]
  rw [this] at hk
  cases hk

theorem stack_of_size_le {s : StackId} (out : h.scopeStacks.size ≤ s.index) :
    h.stack s = default := by
  simp [stack, Array.getElem?_eq_none out]

theorem exists_of_enterable {s : StackId} (hd : ((h.stack s).depth : Int) < (h.stack s).maxDepth) :
    s.index < h.scopeStacks.size := by
  refine Nat.lt_of_not_le fun out => ?_
  rw [stack_of_size_le out] at hd
  exact absurd hd (by decide)

end Heap

/-! ## What one event does -/

namespace Event

variable (e : Event) (h : Heap)

theorem slots_size_le : h.slots.size ≤ (e.act h).slots.size := by
  cases e <;> simp [act, Heap.addSlot, Heap.setSlot, Heap.addScope, Heap.setScope,
    Heap.addStack, Heap.setStack]

theorem scopes_size_le : h.scopes.size ≤ (e.act h).scopes.size := by
  cases e <;> simp [act, Heap.addSlot, Heap.setSlot, Heap.addScope, Heap.setScope,
    Heap.addStack, Heap.setStack]

theorem scopeStacks_size_le : h.scopeStacks.size ≤ (e.act h).scopeStacks.size := by
  cases e <;> simp [act, Heap.addSlot, Heap.setSlot, Heap.addScope, Heap.setScope,
    Heap.addStack, Heap.setStack]

variable {h}

/-- A slot that exists changes only when it is written, and never in its kind. -/
theorem slot_act {t : SlotId} (ht : t.index < h.slots.size) :
    (e.act h).slot t = { h.slot t with value := (e.written? t).getD (h.slot t).value } := by
  cases e with
  | created t' x => exact Heap.slot_addSlot_of_lt h x ht
  | wrote t' v =>
    show (h.setSlot t' _).slot t = _
    rw [Heap.slot_setSlot h t' t _ ht]
    by_cases same : t = t'
    · subst same
      simp [written?]
    · simp [written?, same, Ne.symm same]
  | _ => rfl

/-- A scope that exists changes only when a key is bound in it. -/
theorem scope_act {c : ScopeId} (hc : c.index < h.scopes.size) :
    (e.act h).scope c = (e.rebound? c).getD (h.scope c) := by
  cases e with
  | opened c' bindings => exact Heap.scope_addScope_of_lt h bindings hc
  | copied c' copy => exact Heap.scope_addScope_of_lt h _ hc
  | founded s base maxDepth memoryLimit => exact Heap.scope_addScope_of_lt h .empty hc
  | entered passage s => exact Heap.scope_addScope_of_lt h .empty hc
  | bound via c' key t bindings =>
    show (h.setScope c' bindings).scope c = _
    rw [Heap.scope_setScope h c' c bindings hc]
    by_cases same : c = c'
    · subst same
      simp [rebound?]
    · simp [rebound?, same, Ne.symm same]
  | _ => rfl

/-- A stack that exists changes only when one of its scopes is entered or left. -/
theorem stack_act {s : StackId} (hs : s.index < h.scopeStacks.size) :
    (e.act h).stack s = if e.enters s then (h.stack s).push ⟨h.scopes.size⟩
      else if e.exits s then (h.stack s).pop else h.stack s := by
  cases e with
  | founded s' base maxDepth memoryLimit =>
    exact Heap.stack_addStack_of_lt (h.addScope .empty).2 _ hs
  | entered passage s' =>
    show ((h.addScope .empty).2.setStack s' _).stack s = _
    rw [Heap.stack_setStack (h.addScope .empty).2 s' s _ hs]
    by_cases same : s = s'
    · subst same
      simp only [enters, decide_true, if_true]
    · simp only [same, if_false, enters, exits, Ne.symm same, decide_false, Bool.false_eq_true]
      rfl
  | exited passage s' =>
    show (h.setStack s' _).stack s = _
    rw [Heap.stack_setStack h s' s _ hs]
    by_cases same : s = s'
    · subst same
      simp [enters, exits]
    · simp [enters, exits, same, Ne.symm same]
  | _ => rfl

end Event

/-! ## The last value -/

/-- The last thing that is picked from a list is picked after its first element, or from there. -/
theorem getLast?_filterMap_cons.{u} {α : Type u} {β : Type} (pick : α → Option β) (a : α)
    (as : List α) : ((a :: as).filterMap pick).getLast? = ((as.filterMap pick).getLast?).or (pick a) := by
  cases h : pick a with
  | none =>
    rw [List.filterMap_cons_none h]
    exact Option.or_none.symm
  | some b =>
    rw [List.filterMap_cons_some h, List.getLast?_cons]
    cases (as.filterMap pick).getLast? <;> rfl

/-- The last value that some events put into a slot, if they write it at all. -/
def lastWritten (t : SlotId) (es : List Event) : Option Value :=
  (es.filterMap (·.written? t)).getLast?

theorem lastWritten_cons (t : SlotId) (e : Event) (es : List Event) :
    lastWritten t (e :: es) = (lastWritten t es).or (e.written? t) :=
  getLast?_filterMap_cons _ e es

/-! ## Lists of events -/

namespace Heap

/-- A heap after some events. -/
def after (h : Heap) (es : List Event) : Heap := es.foldl Event.act h

/-- Something holds whenever one of the events happens, of the heap in which it happens. -/
def Along (P : Heap → Event → Prop) : Heap → List Event → Prop
  | _, [] => True
  | h, e :: es => P h e ∧ Along P (e.act h) es

/-- What can be told of each event can be told along events. -/
instance Along.decidable {P : Heap → Event → Prop} [∀ h e, Decidable (P h e)] :
    (h : Heap) → (es : List Event) → Decidable (h.Along P es)
  | _, [] => .isTrue trivial
  | h, e :: es =>
    have : Decidable ((e.act h).Along P es) := Along.decidable (e.act h) es
    inferInstanceAs (Decidable (P h e ∧ (e.act h).Along P es))

@[simp] theorem after_nil (h : Heap) : h.after [] = h := rfl

@[simp] theorem after_cons (h : Heap) (e : Event) (es : List Event) :
    h.after (e :: es) = (e.act h).after es := rfl

theorem after_append (h : Heap) (es fs : List Event) :
    h.after (es ++ fs) = (h.after es).after fs := List.foldl_append

/-- What no event makes smaller is not made smaller by any of them. -/
theorem le_after {size : Heap → Nat} (le : ∀ (e : Event) h, size h ≤ size (e.act h)) (h : Heap)
    (es : List Event) : size h ≤ size (h.after es) := by
  induction es generalizing h with
  | nil => exact Nat.le_refl _
  | cons e es ih => exact Nat.le_trans (le e h) (ih _)

theorem slots_size_le_after (h : Heap) (es : List Event) :
    h.slots.size ≤ (h.after es).slots.size := le_after Event.slots_size_le h es

theorem scopes_size_le_after (h : Heap) (es : List Event) :
    h.scopes.size ≤ (h.after es).scopes.size := le_after Event.scopes_size_le h es

theorem scopeStacks_size_le_after (h : Heap) (es : List Event) :
    h.scopeStacks.size ≤ (h.after es).scopeStacks.size := le_after Event.scopeStacks_size_le h es

theorem environment_after (h : Heap) (es : List Event) :
    (h.after es).environment = h.environment.after es := by
  induction es generalizing h with
  | nil => rfl
  | cons e es ih => rw [after_cons, after_cons, ih, Event.environment_act]

section

variable {P Q : Heap → Event → Prop}

@[simp] theorem along_nil (h : Heap) : h.Along P [] := trivial

@[simp] theorem along_cons {h : Heap} {e : Event} {es : List Event} :
    h.Along P (e :: es) ↔ P h e ∧ (e.act h).Along P es := Iff.rfl

theorem along_append {h : Heap} {es fs : List Event} :
    h.Along P (es ++ fs) ↔ h.Along P es ∧ (h.after es).Along P fs := by
  induction es generalizing h with
  | nil => simp
  | cons e es ih => simp [ih, and_assoc]

theorem Along.and {h : Heap} {es : List Event} (hp : h.Along P es) (hq : h.Along Q es) :
    h.Along (fun h e => P h e ∧ Q h e) es := by
  induction es generalizing h with
  | nil => trivial
  | cons e es ih => exact ⟨⟨hp.1, hq.1⟩, ih hp.2 hq.2⟩

theorem Along.mono {h : Heap} {es : List Event} (imp : ∀ h e, P h e → Q h e)
    (along : h.Along P es) : h.Along Q es := by
  induction es generalizing h with
  | nil => trivial
  | cons e es ih => exact ⟨imp h e along.1, ih along.2⟩

/-- What holds of every event of a list holds whenever one of them happens. -/
theorem along_of_forall {h : Heap} {es : List Event} (hp : ∀ e ∈ es, ∀ h, P h e) :
    h.Along P es := by
  induction es generalizing h with
  | nil => trivial
  | cons e es ih =>
    exact ⟨hp e (by simp) h, ih fun e he => hp e (List.mem_cons_of_mem _ he)⟩

/-- What every event keeps is kept by all of them. -/
theorem Along.invariant {I : Heap → Prop} {h : Heap} {es : List Event}
    (keeps : ∀ h e, I h → P h e → I (e.act h)) (start : I h) (along : h.Along P es) :
    I (h.after es) := by
  induction es generalizing h with
  | nil => exact start
  | cons e es ih => exact ih (keeps h e start along.1) along.2

/-- What every event keeps holds after each of them. -/
theorem Along.after_each {I : Heap → Prop} {h : Heap} {es : List Event}
    (keeps : ∀ h e, I h → P h e → I (e.act h)) (start : I h) (along : h.Along P es) :
    h.Along (fun h e => I (e.act h)) es := by
  induction es generalizing h with
  | nil => trivial
  | cons e es ih =>
    have next := keeps h e start along.1
    exact ⟨next, ih next along.2⟩

/-- Being along is a matter of the environment if each of its conditions is one. -/
theorem along_congr (local' : ∀ h e, P h.environment e ↔ P h e) {h h' : Heap} {es : List Event}
    (same : h.environment = h'.environment) : h.Along P es ↔ h'.Along P es := by
  induction es generalizing h h' with
  | nil => exact Iff.rfl
  | cons e es ih =>
    have next : (e.act h).environment = (e.act h').environment := by
      rw [Event.environment_act, Event.environment_act, same]
    rw [along_cons, along_cons, ih next, ← local' h, same, local' h']

end

/-- A slot keeps its kind and holds the last value that was written to it. -/
theorem slot_after {h : Heap} {t : SlotId} (ht : t.index < h.slots.size) (es : List Event) :
    (h.after es).slot t =
      { h.slot t with value := (lastWritten t es).getD (h.slot t).value } := by
  induction es generalizing h with
  | nil => rfl
  | cons e es ih =>
    rw [after_cons, ih (Nat.lt_of_lt_of_le ht (e.slots_size_le h)), e.slot_act ht,
      lastWritten_cons]
    cases lastWritten t es <;> rfl

/-! ## Runs seen by their events -/

/-- From a heap the listed events, each of which could happen, lead to the environment of another
heap. -/
structure Evolves (h : Heap) (es : List Event) (h' : Heap) : Prop where
  valid : h.Along (fun h e => e.Valid h) es
  reached : (h.after es).environment = h'.environment

namespace Evolves

variable {h h' h'' : Heap}

theorem exists_slot {es : List Event} (run : h.Evolves es h') {t : SlotId}
    (ht : t.index < h.slots.size) : t.index < h'.slots.size := by
  rw [← slots_congr run.reached]
  exact Nat.lt_of_lt_of_le ht (h.slots_size_le_after es)

theorem exists_scope {es : List Event} (run : h.Evolves es h') {c : ScopeId}
    (hc : c.index < h.scopes.size) : c.index < h'.scopes.size := by
  rw [← scopes_congr run.reached]
  exact Nat.lt_of_lt_of_le hc (h.scopes_size_le_after es)

theorem exists_stack {es : List Event} (run : h.Evolves es h') {s : StackId}
    (hs : s.index < h.scopeStacks.size) : s.index < h'.scopeStacks.size := by
  rw [← scopeStacks_congr run.reached]
  exact Nat.lt_of_lt_of_le hs (h.scopeStacks_size_le_after es)

/-- A slot after a run holds the last value that the run put into it. -/
theorem slot {es : List Event} (run : h.Evolves es h') {t : SlotId}
    (ht : t.index < h.slots.size) :
    h'.slot t = { h.slot t with value := (lastWritten t es).getD (h.slot t).value } := by
  rw [← slot_congr run.reached, slot_after ht]

/-- Without an event the environment stays as it is. -/
theorem none (same : h'.environment = h.environment) : h.Evolves [] h' := ⟨trivial, same.symm⟩

theorem one {e : Event} (valid : e.Valid h) (same : h'.environment = (e.act h).environment) :
    h.Evolves [e] h' := ⟨⟨valid, trivial⟩, same.symm⟩

theorem append {es fs : List Event} (first : h.Evolves es h') (second : h'.Evolves fs h'') :
    h.Evolves (es ++ fs) h'' where
  valid := along_append.mpr ⟨first.valid,
    (along_congr (fun h e => Event.valid_environment e h) first.reached).mpr second.valid⟩
  reached := by
    rw [after_append, environment_after, first.reached, ← environment_after, second.reached]

/-- What comes before or after without touching the environment does not matter. -/
theorem congr {g g' : Heap} {es : List Event} (before : g.environment = h.environment)
    (run : h.Evolves es h') (later : g'.environment = h'.environment) : g.Evolves es g' := by
  have := ((none before.symm).append run).append (none later)
  simpa using this

end Evolves

end Heap

end LexEnv
