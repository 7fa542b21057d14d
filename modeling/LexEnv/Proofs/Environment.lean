import LexEnv.Proofs.Built

/-!
# The environment of a heap

Names resolve by the slots, scopes and stacks of a heap; its other tables have no part in that.
`Heap.environment` keeps these three and forgets the rest, so two heaps have the same environment
exactly when every name resolves alike in them and every slot holds the same.

An action is silent when it leaves the environment as it is, whether it succeeds or fails. Actions
that neither change nor add slots, scopes and stacks are silent (`Action.Built.silent`), and so are
most commands (`Command.silent`). Those that only ask leave everything as it is
(`Action.Built.unchanged`).
-/

namespace LexEnv

namespace Heap

/-- The heap with nothing but its slots, scopes and stacks. -/
def environment (h : Heap) : Heap :=
  { empty with slots := h.slots, scopes := h.scopes, scopeStacks := h.scopeStacks }

@[simp] theorem slot_environment (h : Heap) (t : SlotId) : h.environment.slot t = h.slot t := rfl

@[simp] theorem scope_environment (h : Heap) (c : ScopeId) :
    h.environment.scope c = h.scope c := rfl

@[simp] theorem stack_environment (h : Heap) (s : StackId) :
    h.environment.stack s = h.stack s := rfl

section

variable {h h' : Heap}

theorem slot_congr (same : h.environment = h'.environment) (t : SlotId) :
    h.slot t = h'.slot t := by
  rw [← slot_environment, same, slot_environment]

theorem scope_congr (same : h.environment = h'.environment) (c : ScopeId) :
    h.scope c = h'.scope c := by
  rw [← scope_environment, same, scope_environment]

theorem stack_congr (same : h.environment = h'.environment) (s : StackId) :
    h.stack s = h'.stack s := by
  rw [← stack_environment, same, stack_environment]

theorem slots_congr (same : h.environment = h'.environment) : h.slots = h'.slots :=
  (congrArg Heap.slots same : h.environment.slots = h'.environment.slots)

theorem scopes_congr (same : h.environment = h'.environment) : h.scopes = h'.scopes :=
  (congrArg Heap.scopes same : h.environment.scopes = h'.environment.scopes)

theorem scopeStacks_congr (same : h.environment = h'.environment) :
    h.scopeStacks = h'.scopeStacks :=
  (congrArg Heap.scopeStacks same : h.environment.scopeStacks = h'.environment.scopeStacks)

/-- An environment is the same if what names resolve by is the same. -/
theorem environment_eq (has : ∀ o : Object, o.Resolving → (h'.Has o ↔ h.Has o))
    (cell : ∀ o : Object, o.Resolving → h'.cell o = h.cell o) :
    h'.environment = h.environment := by
  have alike : ∀ {α : Type} (d : α) {a b : Array α}, (∀ i : Nat, i < a.size ↔ i < b.size) →
      (∀ i : Nat, a[i]?.getD d = b[i]?.getD d) → a = b := by
    intro α d a b size item
    have same : a.size = b.size := by
      have := size a.size
      have := size b.size
      omega
    refine Array.ext same fun i ha hb => ?_
    simpa [ha, hb] using item i
  have slots : h'.slots = h.slots := alike _ (fun i => has (.slot ⟨i⟩) trivial)
    fun i => Cell.slot.inj (cell (.slot ⟨i⟩) trivial)
  have scopes : h'.scopes = h.scopes := alike _ (fun i => has (.scope ⟨i⟩) trivial)
    fun i => Cell.scope.inj (cell (.scope ⟨i⟩) trivial)
  have scopeStacks : h'.scopeStacks = h.scopeStacks := alike _ (fun i => has (.stack ⟨i⟩) trivial)
    fun i => Cell.stack.inj (cell (.stack ⟨i⟩) trivial)
  rw [environment, environment, slots, scopes, scopeStacks]

end

end Heap

namespace Action

variable {α β : Type}

/-! ## Steps at the front of an action -/

theorem run_read_bind (f : Heap → α) (g : α → Action β) (st : State) :
    (read f >>= g).run st = (g (f st.heap)).run st := rfl

theorem run_inspect_bind (f : Heap → Except Error α) (g : α → Action β) (st : State) :
    (inspect f >>= g).run st =
      match f st.heap with
      | .ok a => (g a).run st
      | .error e => (.error e, st) := by
  rw [run_bind, run_inspect]
  cases f st.heap <;> rfl

/-- Recording something never fails and touches the trace alone. -/
theorem exists_run_recordShown (r : String → TraceRecord) (shown : Heap → Except Error String)
    (st : State) : ∃ trace, (recordShown r shown).run st = (.ok (), { st with trace }) := by
  simp only [run, recordShown]
  split
  · exact ⟨_, rfl⟩
  · exact ⟨st.trace, rfl⟩

theorem run_recordShown_bind (r : String → TraceRecord) (shown : Heap → Except Error String)
    (g : Unit → Action β) (st : State) :
    (recordShown r shown >>= g).run st = (g ()).run ((recordShown r shown).run st).2 := by
  obtain ⟨trace, h⟩ := exists_run_recordShown r shown st
  rw [run_bind, h]

/-! ## Failing -/

/-- An action fails with an error of some kind. -/
def Raises (x : Action α) (kind : ErrorKind) (st : State) : Prop :=
  ∃ e, (x.run st).1 = .error e ∧ e.kind = kind

/-- What ends in a known error raises the kind of this error. -/
theorem raises_iff_of_error {x : Action α} {st st' : State} {e : Error}
    (failed : x.run st = (.error e, st')) (kind : ErrorKind) :
    x.Raises kind st ↔ e.kind = kind := by
  constructor
  · rintro ⟨e', error, is⟩
    rw [failed] at error
    cases error
    exact is
  · intro is
    exact ⟨e, by rw [failed], is⟩

/-- What succeeds raises nothing. -/
theorem not_raises_of_ok {x : Action α} {st st' : State} {a : α}
    (done : x.run st = (.ok a, st')) (kind : ErrorKind) : ¬ x.Raises kind st := by
  rintro ⟨e, error, -⟩
  rw [done] at error
  cases error

/-! ## Silence -/

/-- An action that leaves the environment as it is, however it ends. -/
def Silent (x : Action α) : Prop :=
  ∀ st, (x.run st).2.heap.environment = st.heap.environment

end Action

/-- Powers to do anything but change or add what names resolve by. -/
def Powers.outside : Powers :=
  { all with changes := fun o => ¬o.Resolving, adds := fun o => ¬o.Resolving }

instance : Powers.outside.Failing := ⟨fun _ => trivial⟩

instance : Powers.outside.Faulting := ⟨fun _ => trivial⟩

instance : Powers.outside.Making := ⟨id⟩

theorem Powers.Step.environment {st st' : State} (step : Powers.outside.Step st st') :
    st'.heap.environment = st.heap.environment := by
  cases step with
  | change inside change =>
    exact Heap.environment_eq (fun o _ => change.has o) fun o resolving =>
      change.cell o fun same => inside (same ▸ resolving)
  | @add o heap inside adds =>
    have other : ∀ x : Object, x.Resolving → x ≠ o := fun x resolving same =>
      inside (same ▸ resolving)
    refine Heap.environment_eq (fun x resolving => ?_) fun x resolving =>
      adds.cell x (other x resolving)
    rw [adds.has, or_iff_left (other x resolving)]
  | record | sample => rfl

theorem Action.Built.silent {α : Type} {x : Action α} (built : x.Built .outside) : x.Silent :=
  Built.keeps (R := fun st st' => st'.heap.environment = st.heap.environment) (fun _ => rfl)
    (fun first second => second.trans first) Powers.Step.environment built

/-! ## Asking -/

/-- Powers to look, and to fail otherwise than by refusing a write. -/
def Powers.asking : Powers where
  fails := Error.Other
  changes _ := False
  adds _ := False
  records := False
  samples := False

instance : Powers.asking.Failing := ⟨Error.Ordinary.other⟩

/-- Asking leaves everything as it is. -/
theorem Action.Built.unchanged {α : Type} {x : Action α} (built : x.Built .asking) (st : State) :
    (x.run st).2 = st := by
  refine Built.keeps (R := fun st st' => st' = st) (fun _ => rfl)
    (fun first second => second.trans first) (fun step => ?_) built st
  cases step with
  | change inside | add inside => exact inside.elim
  | record told | sample told => exact told.elim

/-! ## Commands -/

namespace Command

/-- Commands that may change or add slots, scopes and stacks. -/
def resolving {α : Type} (c : Command α) : Bool :=
  c.extending ||
    match c with
    | .setSlot .. | .setSlotDirectly .. | .scopeBind .. | .exit _ | .bind .. | .assign .. => true
    | _ => false

/-- All other commands are silent. -/
theorem silent {α : Type} (c : Command α) (other : c.resolving = false) : c.run.Silent := by
  have extending : c.extending = false := (Bool.or_eq_false_iff.mp other).1
  have within : c.powers.Within .outside := by
    refine ⟨fun _ _ => trivial, fun o inside => ?_, fun o adds resolving => ?_, fun _ => trivial,
      fun _ => trivial⟩
    · change c.footprint o at inside
      cases c with
      | eat | expect | named | takeAllPositional | takeAllNamed | append =>
        cases inside
        exact id
      | setDefaults | addDefaults => rcases inside with ⟨_, rfl⟩ | ⟨_, rfl⟩ <;> exact id
      | _ => first | exact inside.elim | exact nomatch other
    · exact Bool.false_ne_true (extending.symm.trans (adds resolving))
  exact (c.built.mono within).silent

end Command

end LexEnv
