import LexEnv.Proofs.Footprint
import LexEnv.Proofs.HashAlong
import LexEnv.Proofs.Interleaving
import LexEnv.Proofs.Separation
import LexEnv.Proofs.Steps

/-!
# The base of stacks

Definitions through a stack never reach its base: they go to scopes that the stack made itself.
Assignments do, since a name may resolve to a slot of the base. So, unless an operation goes to the
base or its slots directly, the base binds the same names to the same slots after any run, and each
slot holds the value that was last assigned to it through a stack, or what it held
(`State.Reachable.base_spared`).

If nothing was assigned to them, and the values that they hold were not changed inside, enumerating,
printing, comparing and hashing the base give what they gave.
-/

namespace LexEnv

open LexEnv.Action

/-! ## What a step does to a base -/

/-- The slots that a scope binds. -/
def Heap.slotsOf (h : Heap) (c : ScopeId) : List SlotId := (h.scope c).entries.map (·.2)

/-- An operation that does not go to a scope or to the slots that it binds. Definitions go to the
active scope of their stack, which may not be the scope unless that is the base; assignments go where
their name resolves to. -/
def Command.Spares (base : ScopeId) (h : Heap) : {α : Type} → Command α → Prop
  | _, .defineConst s _ _ => (h.stack s).base = some base ∨ (h.stack s).active ≠ base
  | _, .defineMut s _ _ => (h.stack s).base = some base ∨ (h.stack s).active ≠ base
  | _, .bind s _ _ => (h.stack s).base = some base ∨ (h.stack s).active ≠ base
  | _, .assign _ _ _ => True
  | _, c => ¬c.footprint (.scope base) ∧ ∀ t ∈ h.slotsOf base, ¬c.footprint (.slot t)

instance Command.Spares.decidable (base : ScopeId) (h : Heap) :
    {α : Type} → (c : Command α) → Decidable (c.Spares base h)
  | _, .defineConst .. | _, .defineMut .. | _, .bind .. => inferInstanceAs (Decidable (_ ∨ _))
  | _, .assign .. => .isTrue trivial
  | _, .createSlot .. | _, .getSlot .. | _, .slotIsConstant .. | _, .setSlot ..
  | _, .setSlotDirectly .. | _, .createScope .. | _, .scopeDefineConst .. | _, .scopeDefineMut ..
  | _, .scopeBind .. | _, .scopeDefineFunc .. | _, .scopeDefineClass .. | _, .scopeLookup ..
  | _, .scopeEnumerate .. | _, .scopeCopy .. | _, .createStack .. | _, .depth .. | _, .active ..
  | _, .enter .. | _, .exit .. | _, .lookup .. | _, .get .. | _, .capture .. | _, .visible ..
  | _, .createArguments .. | _, .arguments .. | _, .eat .. | _, .expect .. | _, .named ..
  | _, .takeAllPositional .. | _, .takeAllNamed .. | _, .finish .. | _, .createContext ..
  | _, .contextStack .. | _, .outputOf .. | _, .append .. | _, .defaults .. | _, .defaultOf ..
  | _, .setDefaults .. | _, .addDefaults .. | _, .newSequence .. | _, .newDict .. | _, .newFloat ..
  | _, .newFunc .. | _, .newClass .. | _, .written .. | _, .display .. | _, .typeName ..
  | _, .scriptType .. | _, .truth .. | _, .size? .. | _, .add .. | _, .mul .. | _, .atMostZero ..
  | _, .sample .. => inferInstanceAs (Decidable (_ ∧ _))

/-- The value that an operation assigns to a slot: that of an assignment through a stack whose name
resolves to the slot, if the slot can be written. -/
def Command.assigned? (t : SlotId) (st : State) : {α : Type} → Command α → Option Value
  | _, .assign s name v =>
    if ((s.lookup name).run st).1 = .ok (some t) ∧ (st.heap.slot t).kind = .mutable then some v
    else none
  | _, _ => none

namespace Step

/-- A step that does not go to a scope or to the slots that it binds. -/
def Spares (base : ScopeId) (s : Step) : Prop := s.command.Spares base s.before.heap

instance Spares.decidable (base : ScopeId) (s : Step) : Decidable (s.Spares base) :=
  inferInstanceAs (Decidable (s.command.Spares base s.before.heap))

/-- The value that a step assigns to a slot. -/
def assigned? (t : SlotId) (s : Step) : Option Value := s.command.assigned? t s.before

end Step

/-- The last value that some steps assigned to a slot, if they did so at all. -/
def lastAssigned (t : SlotId) (ss : List Step) : Option Value :=
  (ss.filterMap (·.assigned? t)).getLast?

theorem lastAssigned_cons (t : SlotId) (s : Step) (ss : List Step) :
    lastAssigned t (s :: ss) = (lastAssigned t ss).or (s.assigned? t) :=
  getLast?_filterMap_cons _ s ss

/-- A scope binds what it bound, and its slots hold what they held or were assigned. -/
structure Heap.Spared (base : ScopeId) (assigned? : SlotId → Option Value) (h h' : Heap) : Prop where
  scope : h'.scope base = h.scope base
  slot : ∀ t ∈ h.slotsOf base,
    h'.slot t = { h.slot t with value := (assigned? t).getD (h.slot t).value }

namespace Heap.Spared

variable {base : ScopeId} {a b : SlotId → Option Value} {h h' h'' : Heap}

theorem slotsOf (spared : h.Spared base a h') : h'.slotsOf base = h.slotsOf base := by
  rw [Heap.slotsOf, spared.scope, Heap.slotsOf]

theorem trans (first : h.Spared base a h') (second : h'.Spared base b h'') :
    h.Spared base (fun t => (b t).or (a t)) h'' where
  scope := second.scope.trans first.scope
  slot t mem := by
    rw [second.slot t (first.slotsOf ▸ mem), first.slot t mem]
    cases b t <;> rfl

/-- Nothing is assigned by what leaves a scope and its slots alone. -/
theorem of_confined {T : Object → Prop} (confined : h.Confined T h') (hwf : h.WellFormed)
    (hb : base.index < h.scopes.size) (scope : ¬T (.scope base))
    (slots : ∀ t ∈ h.slotsOf base, ¬T (.slot t)) : h.Spared base (fun _ => none) h' where
  scope := Cell.scope.inj (confined.cell (.scope base) hb scope)
  slot t mem := by
    obtain ⟨e, bound, rfl⟩ := List.mem_map.mp mem
    exact Cell.slot.inj (confined.cell (.slot e.2) (hwf.slots base e bound) (slots _ mem))

end Heap.Spared

namespace StackId

variable {base : ScopeId} {st : State} {s : StackId}

/-- The active scope of a stack is not its base. -/
theorem active_ne (hwf : st.heap.WellFormed)
    (spares : (st.heap.stack s).base = some base ∨ (st.heap.stack s).active ≠ base) :
    (st.heap.stack s).active ≠ base := by
  refine spares.elim (fun based same => ?_) id
  by_cases hs : s.index < st.heap.scopeStacks.size
  · exact (hwf.sound s hs).base_ne (Stack.active_mem_own _) (same ▸ based)
  · rw [Heap.stack_of_size_le (Nat.le_of_not_lt hs)] at based
    cases based

/-- A definition through a stack is confined to its active scope. -/
theorem spared_define (hwf : st.heap.WellFormed) (hb : base.index < st.heap.scopes.size)
    (spares : (st.heap.stack s).base = some base ∨ (st.heap.stack s).active ≠ base)
    (r : String → TraceRecord) (shown : Heap → Except Error String) {x : Action Unit}
    (built : x.Built (.inside (· = .scope (st.heap.stack s).active))) :
    st.heap.Spared base (fun _ => none) ((recordShown r shown >>= fun _ => x).run st).2.heap := by
  have recorded := Action.Built.bind (.recordShown (P := .inside _) trivial r shown) fun _ => built
  exact .of_confined (recorded.confined st) hwf hb
    (fun same => active_ne hwf spares (Object.scope.inj same).symm) fun t _ => nofun

/-- Setting a slot puts the value into that slot, if it can be written. -/
theorem lastWritten_set (t t' : SlotId) (v : Value) (st : State) :
    lastWritten t (Event.ifDone ((t'.set v).run st).1 (.wrote t' v)) =
      if t' = t ∧ (st.heap.slot t').kind = .mutable then some v else none := by
  cases hk : (st.heap.slot t').kind with
  | mutable =>
    have done : ((t'.set v).run st).1 = .ok () := by
      rw [SlotId.run_set_mutable hk]
      rfl
    rw [done]
    by_cases same : t' = t <;> simp [Event.ifDone, lastWritten, Event.written?, same]
  | constant =>
    rw [SlotId.run_set_constant hk]
    simp [Event.ifDone, lastWritten]
  | bare =>
    rw [SlotId.run_set_bare hk]
    simp [Event.ifDone, lastWritten]

/-- The event of an assignment puts into a slot what is assigned to it. -/
theorem lastWritten_assignEvents (s : StackId) (name v : Value) (t : SlotId) (st : State) :
    lastWritten t (s.assignEvents name v st) = (Command.assign s name v).assigned? t st := by
  have found : (s.lookup name).run st = (((s.lookup name).run st).1, st) := rfl
  rw [assignEvents, Command.assigned?]
  generalize ((s.lookup name).run st).1 = outcome at found
  rcases outcome with e | _ | t'
  · simp [lastWritten]
  · simp [lastWritten]
  · rw [run_assign s st v found, lastWritten_set]
    refine if_congr ?_ rfl rfl
    constructor
    · rintro ⟨rfl, hk⟩
      exact ⟨rfl, hk⟩
    · rintro ⟨same, hk⟩
      cases same
      exact ⟨rfl, hk⟩

theorem spared_assign (hwf : st.heap.WellFormed) (hb : base.index < st.heap.scopes.size)
    (name v : Value) : st.heap.Spared base (fun t => (Command.assign s name v).assigned? t st)
      ((s.assign name v).run st).2.heap where
  scope := by
    have outside : ¬AnySlot (.scope base) := by
      rintro ⟨_, same⟩
      cases same
    exact Cell.scope.inj (((Command.assign s name v).confined st).cell (.scope base) hb outside)
  slot t mem := by
    obtain ⟨e, bound, rfl⟩ := List.mem_map.mp mem
    rw [(evolves_assign s st name v).slot (hwf.slots base e bound), lastWritten_assignEvents]

end StackId

theorem Command.spared {α : Type} (c : Command α) {base : ScopeId} {st : State}
    (hwf : st.heap.WellFormed) (hb : base.index < st.heap.scopes.size)
    (spares : c.Spares base st.heap) :
    st.heap.Spared base (fun t => c.assigned? t st) (c.run.run st).2.heap := by
  cases c with
  | defineConst s name v =>
    exact StackId.spared_define hwf hb spares _ _
      (ScopeId.built_define _ rfl (fun _ => trivial) .constant name v)
  | defineMut s name v =>
    exact StackId.spared_define hwf hb spares _ _
      (ScopeId.built_define _ rfl (fun _ => trivial) .mutable name v)
  | bind s name slot =>
    exact StackId.spared_define hwf hb spares _ _ (ScopeId.built_bind _ rfl name slot)
  | assign s name v => exact StackId.spared_assign hwf hb name v
  | _ => exact .of_confined (Command.confined _ st) hwf hb spares.1 spares.2

/-! ## What a run does to a base -/

namespace Steps.Chain

variable {h h' : Heap} {ss : List Step}

/-- Steps change nothing that is there but what one of them may change. -/
theorem confined (chain : Chain h ss h') :
    h.Confined (fun o => ∃ s ∈ ss, s.command.footprint o) h' := by
  induction ss generalizing h with
  | nil =>
    rw [chain_nil.mp chain]
    exact .refl _ h
  | cons s ss ih =>
    obtain ⟨rfl, rest⟩ := chain
    refine .trans ((s.command.confined s.before).mono fun o inside => ?_)
      ((ih rest).mono fun o inside => ?_)
    · exact ⟨s, List.mem_cons_self, inside⟩
    · obtain ⟨t, mem, inside⟩ := inside
      exact ⟨t, List.mem_cons_of_mem _ mem, inside⟩

/-- Steps that spare a scope leave its bindings, and put into its slots what they assign to them. -/
theorem spared (chain : Chain h ss h') {base : ScopeId} (hwf : h.WellFormed)
    (hb : base.index < h.scopes.size) (spares : ∀ s ∈ ss, s.Spares base)
    (grounded : ∀ s ∈ ss, s.before.heap.Grounded s.events) :
    h.Spared base (lastAssigned · ss) h' := by
  induction ss generalizing h with
  | nil =>
    rw [chain_nil.mp chain]
    exact ⟨rfl, fun _ _ => rfl⟩
  | cons s ss ih =>
    obtain ⟨rfl, rest⟩ := chain
    have first := s.command.spared hwf hb (spares s List.mem_cons_self)
    have kept : s.after.heap.WellFormed :=
      (hwf.after s.evolves.valid (grounded s List.mem_cons_self)).congr s.evolves.reached
    have there : base.index < s.after.heap.scopes.size :=
      (s.command.confined s.before).has (.scope base) hb
    have later := ih rest kept there (fun t mem => spares t (List.mem_cons_of_mem _ mem))
      fun t mem => grounded t (List.mem_cons_of_mem _ mem)
    simp only [lastAssigned_cons]
    exact first.trans later

end Steps.Chain

/-! ## What is seen of a base -/

/-- A heap in which no object is missing that another one has is as large. -/
theorem Heap.size_le_of_has {h h' : Heap} (has : ∀ o, h.Has o → h'.Has o) : h.size ≤ h'.size := by
  have le : ∀ {m n : Nat} (object : Nat → Object) (_ : ∀ i, i < m → h.Has (object i))
      (_ : ∀ i, h'.Has (object i) → i < n), m ≤ n := fun object inside outside =>
    Nat.le_of_not_lt fun less => Nat.lt_irrefl _ (outside _ (has _ (inside _ less)))
  unfold size
  have slots := le (.slot ⟨·⟩) (fun _ => id) fun _ => id
  have scopes := le (.scope ⟨·⟩) (fun _ => id) fun _ => id
  have scopeStacks := le (.stack ⟨·⟩) (fun _ => id) fun _ => id
  have sequences := le (.sequence ⟨·⟩) (fun _ => id) fun _ => id
  have sets := le (.set ⟨·⟩) (fun _ => id) fun _ => id
  have dicts := le (.dict ⟨·⟩) (fun _ => id) fun _ => id
  have arguments := le (.arguments ⟨·⟩) (fun _ => id) fun _ => id
  have contexts := le (.context ⟨·⟩) (fun _ => id) fun _ => id
  omega

/-- The objects that a scope and some values consist of. -/
def Heap.Under (h : Heap) (c : ScopeId) (ws : List Value) : Object → Prop :=
  h.Reaches (.scope c :: ws.flatMap Value.objects)

/-- Steps after which a scope and some values consist of what they did: everything is there, scopes
bind texts, and whatever a step may have changed, apart from the scope itself and its slots, holds
what it held. -/
structure Steps.KeepsUnder (ss : List Step) (c : ScopeId) (ws : List Value) (h h' : Heap) :
    Prop where
  exist : ∀ o, h.Under c ws o → h.Has o
  textual : ∀ d, h.Under c ws (.scope d) → (h.scope d).Textual
  same : ∀ o, h.Under c ws o → o ≠ .scope c → (∀ t ∈ h.slotsOf c, o ≠ .slot t) →
    (∃ s ∈ ss, s.command.footprint o) → h'.cell o = h.cell o

/-- Objects that are still there and hold what they held look the same in the heap afterwards. -/
theorem Link.follows_on {h h' : Heap} {T : Object → Prop} (exist : ∀ o, T o → h.Has o)
    (closed : ∀ o, T o → ∀ p ∈ (h.cell o).parts, T p)
    (textual : ∀ c, T (.scope c) → (h.scope c).Textual) (has : ∀ o, h.Has o → h'.Has o)
    (same : ∀ o, T o → h'.cell o = h.cell o) : (on T).Follows h h' where
  mirrors := by
    have m := mirrors_on exist closed textual
    refine ⟨fun {o p} linked => ?_, m.functional, m.injective, fun {o p} linked => ?_⟩
    · exact ⟨(m.exist linked).1, has p (m.exist linked).2⟩
    · rw [same p (linked.1 ▸ linked.2)]
      exact m.cells linked
  fixed linked := .inr linked.1
  size := Heap.size_le_of_has has

/-- A base after a run that spares it binds the same names to the same slots, and each of them holds
the value that was last assigned to it through a stack, or else what it held. If that is the same
value, and the values are not changed inside, then the base is printed as before, and hashing it and
comparing it with a value give what they gave, if they came to an end. -/
theorem State.Reachable.base_spared {st : State} (reach : st.Reachable) {base : ScopeId}
    (there : base.index < st.heap.scopes.size) {α : Type} (p : Program α)
    (spares : ∀ s ∈ p.steps st, s.Spares base)
    (grounded : ∀ s ∈ p.steps st, s.before.heap.Grounded s.events) :
    let h := st.heap
    let h' := (p.toAction.run st).2.heap
    h'.scope base = h.scope base ∧
    (∀ t ∈ h.slotsOf base, h'.slot t =
      { h.slot t with value := (lastAssigned t (p.steps st)).getD (h.slot t).value }) ∧
    ((h.scope base).Textual → h'.enumerate (h'.scope base) = h.enumerate (h.scope base)) ∧
    ∀ ws, (∀ t ∈ h.slotsOf base, ∀ v ∈ lastAssigned t (p.steps st), v = (h.slot t).value) →
      Steps.KeepsUnder (p.steps st) base ws h h' →
      h'.written (.scope base) = h.written (.scope base) ∧
      (h.hash (.scope base) = .error .endless ∨
        h'.hash (.scope base) = h.hash (.scope base)) ∧
      ∀ w ∈ ws,
        (h.equal (.scope base) w = .error .endless ∨
          h'.equal (.scope base) w = h.equal (.scope base) w) ∧
        (h.equal w (.scope base) = .error .endless ∨
          h'.equal w (.scope base) = h.equal w (.scope base)) := by
  intro h h'
  have chain : Steps.Chain h (p.steps st) h' := p.chain st
  have spared := chain.spared reach.wellFormed there spares grounded
  refine ⟨spared.scope, spared.slot, fun textual => ?_, fun ws unassigned keeps => ?_⟩
  · rw [spared.scope, Heap.enumerate, Heap.enumerate]
    obtain ⟨es, entries⟩ := textual
    rw [Table.ascending, Table.ascending, Table.texts?_of_entries entries]
  have same : ∀ o, h.Under base ws o → h'.cell o = h.cell o := by
    intro o inside
    by_cases scope : o = .scope base
    · rw [scope]
      exact congrArg Cell.scope spared.scope
    by_cases slot : ∃ t ∈ h.slotsOf base, o = .slot t
    · obtain ⟨t, mem, rfl⟩ := slot
      refine congrArg Cell.slot ((spared.slot t mem).trans ?_)
      have last := unassigned t mem
      cases assigned : lastAssigned t (p.steps st) with
      | none => rfl
      | some v =>
        rw [assigned] at last
        rw [last v rfl]
        rfl
    by_cases changed : ∃ s ∈ p.steps st, s.command.footprint o
    · exact keeps.same o inside scope (fun t mem is => slot ⟨t, mem, is⟩) changed
    · exact chain.confined.cell o (keeps.exist o inside) changed
  have follows := Link.follows_on keeps.exist (fun o inside p mem => .part inside mem) keeps.textual
    chain.confined.has same
  have self : (Link.on (h.Under base ws)).Alike (.scope base) (.scope base) :=
    .scope (Link.on_self (.root List.mem_cons_self))
  refine ⟨(follows.mirrors.written self).1.symm, (follows.hash self).eq_or, fun w mem => ?_⟩
  have other : (Link.on (h.Under base ws)).Alike w w := Link.alike_on fun o ho =>
    .root (List.mem_cons_of_mem _ (List.mem_flatMap.mpr ⟨w, mem, ho⟩))
  exact ⟨(follows.equal _ _ _ _ self other).eq_or, (follows.equal _ _ _ _ other self).eq_or⟩

/-! ### A base with a variable -/

/-- Makes a base with a constant and a variable, a copy of it and a stack over it. -/
def variableInBase : Program Unit := do
  let base ← .exec (.createScope .empty)
  .exec (.scopeDefineConst base (.text "pi") (.int 3))
  .exec (.scopeDefineMut base (.text "x") (.int 1))
  let _ ← .exec (.scopeCopy base)
  let _ ← .exec (.createStack (some base) 3 none)

/-- Writes the variable of the base, hides it, writes what hides it, and gives the variable of the
base its first value again. -/
def writingBase : Program Unit := do
  .exec (.assign ⟨0⟩ (.text "x") (.int 2))
  .exec (.enter ⟨0⟩)
  .exec (.defineMut ⟨0⟩ (.text "x") (.int 4))
  .exec (.assign ⟨0⟩ (.text "x") (.int 5))
  .exec (.exit ⟨0⟩)
  .exec (.assign ⟨0⟩ (.text "x") (.int 1))

/-- What the base and its copy consist of. -/
def variableInBaseParts : List Object := [.scope ⟨0⟩, .scope ⟨1⟩, .slot ⟨0⟩, .slot ⟨1⟩]

theorem variableInBase_parts (o : Object)
    (under : (variableInBase.toAction.run .initial).2.heap.Under ⟨0⟩ [.scope ⟨1⟩] o) :
    o ∈ variableInBaseParts := by
  refine under.inside ?_ ?_
  · decide +kernel
  · decide +kernel

theorem variableInBase_kept {st : State} (hst : st = (variableInBase.toAction.run .initial).2) :
    Steps.KeepsUnder (writingBase.steps st) ⟨0⟩ [.scope ⟨1⟩] st.heap
      (writingBase.toAction.run st).2.heap := by
  have parts : ∀ o, st.heap.Under ⟨0⟩ [.scope ⟨1⟩] o → o ∈ variableInBaseParts := by
    rw [hst]
    exact variableInBase_parts
  have exist : ∀ o ∈ variableInBaseParts, st.heap.Has o := by
    rw [hst]
    decide +kernel
  have textual : (st.heap.scope ⟨0⟩).Textual ∧ (st.heap.scope ⟨1⟩).Textual := by
    rw [hst]
    decide +kernel
  have slots : st.heap.slotsOf ⟨0⟩ = [⟨0⟩, ⟨1⟩] := by
    rw [hst]
    decide +kernel
  have copy : (writingBase.toAction.run st).2.heap.scope ⟨1⟩ = st.heap.scope ⟨1⟩ := by
    rw [hst]
    decide +kernel
  refine ⟨fun o under => exist o (parts o under), fun d under => ?_, fun o under ne other _ => ?_⟩
  · have mem : d = ⟨0⟩ ∨ d = ⟨1⟩ := by simpa [variableInBaseParts] using parts _ under
    rcases mem with rfl | rfl
    · exact textual.1
    · exact textual.2
  · have mem := parts o under
    simp only [slots, List.mem_cons, List.not_mem_nil, or_false, forall_eq_or_imp, forall_eq]
      at other
    simp only [variableInBaseParts, List.mem_cons, List.not_mem_nil, or_false, ne, other,
      false_or] at mem
    subst mem
    exact congrArg Cell.scope copy

theorem State.Reachable.base_spared_writing : ∃ st st',
    st = (variableInBase.toAction.run .initial).2 ∧ st' = (writingBase.toAction.run st).2 ∧
    st'.heap.scope ⟨0⟩ = st.heap.scope ⟨0⟩ ∧ (st'.heap.slot ⟨1⟩).value = .int 1 ∧
    st'.heap.written (.scope ⟨0⟩) = st.heap.written (.scope ⟨0⟩) ∧
    st'.heap.equal (.scope ⟨0⟩) (.scope ⟨1⟩) = .ok true := by
  obtain ⟨st, hst⟩ : ∃ st, st = (variableInBase.toAction.run .initial).2 := ⟨_, rfl⟩
  have reach : st.Reachable := by
    rw [hst]
    exact ⟨_, .one .initial variableInBase, by decide +kernel⟩
  have spares : ∀ s ∈ writingBase.steps st, s.Spares ⟨0⟩ := by
    rw [hst]
    decide +kernel
  have grounded : ∀ s ∈ writingBase.steps st, s.before.heap.Grounded s.events := by
    rw [hst]
    decide +kernel
  have last : lastAssigned ⟨1⟩ (writingBase.steps st) = some (.int 1) := by
    rw [hst]
    decide +kernel
  have unassigned : ∀ t ∈ st.heap.slotsOf ⟨0⟩, ∀ v ∈ lastAssigned t (writingBase.steps st),
      v = (st.heap.slot t).value := by
    rw [hst]
    decide +kernel
  have bound : (⟨1⟩ : SlotId) ∈ st.heap.slotsOf ⟨0⟩ := by
    rw [hst]
    decide +kernel
  have before : st.heap.equal (.scope ⟨0⟩) (.scope ⟨1⟩) = .ok true := by
    rw [hst]
    decide +kernel
  have there : (⟨0⟩ : ScopeId).index < st.heap.scopes.size := by
    rw [hst]
    decide +kernel
  obtain ⟨scope, values, -, seen⟩ := reach.base_spared there writingBase spares grounded
  obtain ⟨written, -, equal⟩ := seen [.scope ⟨1⟩] unassigned (variableInBase_kept hst)
  refine ⟨st, _, hst, rfl, scope, ?_, written, ?_⟩
  · rw [values _ bound, last]
    rfl
  · have compared := (equal _ List.mem_cons_self).1
    rw [before] at compared
    exact compared.resolve_left nofun

/-- A variable of the base is written by an assignment through a stack, and nothing else is done. -/
theorem assign_writes_base :
    let st := (variableInBase.toAction.run .initial).2
    let assigned := (StackId.assign ⟨0⟩ (.text "x") (.int 2)).run st
    (st.heap.stack ⟨0⟩).base = some ⟨0⟩ ∧ assigned.1 = .ok () ∧
      (st.heap.scope ⟨0⟩).get? "x" = some ⟨1⟩ ∧ (st.heap.slot ⟨1⟩).value = .int 1 ∧
      (assigned.2.heap.slot ⟨1⟩).value = .int 2 ∧
      st.heap.written (.scope ⟨0⟩) = .ok "Scope \x7bpi: 3, x: 1\x7d" ∧
      assigned.2.heap.written (.scope ⟨0⟩) = .ok "Scope \x7bpi: 3, x: 2\x7d" := by
  decide +kernel

end LexEnv
