import LexEnv.Proofs.Environment

/-!
# Failing without a trace

An error does not undo anything, so what an operation did before it failed stays done. The operations
of slots, scopes and stacks make nothing of that: each of them does all of its checks before it
changes anything, and an operation that fails on its own account leaves nothing but records.

Such an operation has a first part that only looks (`Powers.looking`) and a last part that cannot fail
(`Powers.unfailing`); `atomic_bind` puts both together. Since nobody reads the trace, operations that
fail can then be taken out of any run of operations: what is left answers as before and ends in the
same state (`Operation.refused_changes_nothing`).
-/

namespace LexEnv

namespace Powers

/-- Powers to fail and to leave records. -/
def looking : Powers := { asking with fails := fun _ => True, records := True }

/-- Powers to do anything but fail. -/
def unfailing : Powers := { all with fails := fun _ => False }

instance : looking.Failing := ⟨fun _ => trivial⟩

instance : looking.Refusing := ⟨fun _ => trivial, trivial⟩

instance : unfailing.Making := ⟨fun _ => trivial⟩

end Powers

namespace Action

variable {α β : Type}

/-! ## Looking, never failing, and failing without a trace -/

/-- An action that changes nothing but the trace. -/
def Quiet (x : Action α) : Prop := ∀ st, ∃ trace, (x.run st).2 = { st with trace }

/-- An action that never fails. -/
def Total (x : Action α) : Prop := ∀ st, ∃ a, (x.run st).1 = .ok a

/-- An action that has changed nothing but the trace if it fails. -/
def Atomic (x : Action α) : Prop :=
  ∀ st e, (x.run st).1 = .error e → ∃ trace, (x.run st).2 = { st with trace }

theorem Built.quiet {x : Action α} (built : x.Built .looking) : x.Quiet := by
  refine Built.keeps (R := fun st st' => ∃ trace, st' = { st with trace })
    (fun st => ⟨st.trace, rfl⟩) ?_ (fun step => ?_) built
  · rintro st _ _ ⟨trace, rfl⟩ ⟨trace', rfl⟩
    exact ⟨trace', rfl⟩
  · cases step with
    | change inside => exact inside.elim
    | add inside => exact inside.elim
    | record _ r => exact ⟨_, rfl⟩
    | sample samples => exact samples.elim

theorem Built.total {x : Action α} (built : x.Built .unfailing) : x.Total := by
  intro st
  cases answer : (x.run st).1 with
  | ok a => exact ⟨a, rfl⟩
  | error e => exact (built.failsAs st e answer).elim

theorem Built.atomic_looking {x : Action α} (built : x.Built .looking) : x.Atomic :=
  fun st _ _ => built.quiet st

theorem Built.atomic_unfailing {x : Action α} (built : x.Built .unfailing) : x.Atomic := by
  intro st e failed
  obtain ⟨a, ok⟩ := built.total st
  rw [ok] at failed
  cases failed

/-- After looking only, what comes next is as if it came first. -/
theorem atomic_bind {x : Action α} {f : α → Action β} (hx : x.Built .looking)
    (hf : ∀ a, (f a).Atomic) : (x >>= f).Atomic := by
  intro st e failed
  obtain ⟨trace, same⟩ := hx.quiet st
  rw [run_bind] at failed ⊢
  rcases hr : x.run st with ⟨r, st'⟩
  rw [hr] at failed same
  cases same
  cases r with
  | ok a => exact hf a _ e failed
  | error e' => exact ⟨trace, rfl⟩

/-- What follows on an action that fails without a trace does so too if it cannot fail. -/
theorem atomic_bind_unfailing {x : Action α} {f : α → Action β} (hx : x.Atomic)
    (hf : ∀ a, (f a).Built .unfailing) : (x >>= f).Atomic := by
  intro st e failed
  rw [run_bind] at failed ⊢
  rcases hr : x.run st with ⟨r, st'⟩
  rw [hr] at failed
  cases r with
  | ok a =>
    obtain ⟨b, ok⟩ := (hf a).total st'
    rw [ok] at failed
    cases failed
  | error e' => simpa [hr] using hx st e' (by rw [hr])

end Action

open LexEnv.Action

/-! ## Slots -/

namespace SlotId

theorem atomic_set (t : SlotId) (v : Value) : (t.set v).Atomic := by
  refine atomic_bind (.read _) fun kind => ?_
  cases kind with
  | mutable => exact (t.built_store trivial v).atomic_unfailing
  | constant => exact (built_refusal _ _ v).atomic_looking
  | bare => exact (Built.fail trivial).atomic_looking

theorem atomic_setDirectly (t : SlotId) (v : Value) : (t.setDirectly v).Atomic := by
  refine atomic_bind (.read _) fun kind => ?_
  cases kind with
  | mutable => exact (t.built_store trivial v).atomic_unfailing
  | constant => exact (Built.fail trivial).atomic_looking
  | bare => exact (Built.fail trivial).atomic_looking

/-- An update of a slot that is not mutable only looks: its function is not run. -/
theorem exists_run_update {t : SlotId} {st : State} (hk : (st.heap.slot t).kind ≠ .mutable)
    (revise : Value → Action Value) :
    ∃ trace, ((t.update revise).run st).2 = { st with trace } := by
  rw [update, get, run_read_bind, kind, run_read_bind]
  cases h : (st.heap.slot t).kind with
  | mutable => exact absurd h hk
  | constant => exact (built_refusal _ _ (st.heap.slot t).value).quiet st
  | bare => exact ⟨st.trace, rfl⟩

end SlotId

/-! ## Scopes -/

namespace ScopeId

theorem atomic_bind (c : ScopeId) (name : Value) (t : SlotId) : (c.bind name t).Atomic :=
  Action.atomic_bind (built_looking fun h => h.looks_key name) fun key =>
    Action.atomic_bind (built_looking fun h => h.looks_put key t _) fun bindings =>
      (Built.modifyHeap trivial fun h => h.changes_setScope c bindings).atomic_unfailing

/-- Defining a text never fails. -/
theorem built_define_text (c : ScopeId) (kind : SlotKind) (name : String) (v : Value) :
    (c.define kind (.text name) v).Built .unfailing := by
  have put : ∀ (h : Heap) (t : SlotId),
      FailsAs (fun _ => False) (h.put (.text name) t (h.scope c)) := by
    intro h t e failed
    rw [h.put_text name t] at failed
    cases failed
  show (allocate (·.addSlot ⟨kind, v⟩) >>= c.bindKey (.text name)).Built .unfailing
  exact .bind (SlotId.built_create (fun _ => trivial) kind v) fun t =>
    .bind (.inspect fun h => put h t) fun bindings =>
      .modifyHeap trivial fun h => h.changes_setScope c bindings

/-- Defining something that has to be made first fails only if that cannot be made. -/
theorem atomic_define_made (c : ScopeId) (name : String) {made : Action Value}
    (hm : made.Atomic) : (made >>= c.defineConst (.text name)).Atomic :=
  atomic_bind_unfailing hm fun v => c.built_define_text .constant name v

end ScopeId

theorem Value.atomic_newClass (name : String) (type : HostType) : (newClass name type).Atomic := by
  unfold newClass
  split
  · exact (Built.bind built_addSerial fun _ => .pure _).atomic_unfailing
  · exact (Built.fail trivial).atomic_looking

/-! ## Stacks -/

namespace StackId

theorem atomic_enter (s : StackId) : s.enter.Atomic := by
  refine atomic_bind s.built_view fun x => ?_
  intro st
  -- The limits are checked before anything is made.
  refine atomic_bind (built_ofOutcome fun _ _ => trivial) (fun _ => ?_) st
  exact (Built.bind (ScopeId.built_create (fun _ => trivial) _) fun _ =>
    .bind (.modifyHeap trivial fun h => h.changes_setStack s _) fun _ =>
      .record trivial _).atomic_unfailing

theorem atomic_exit (s : StackId) : s.exit.Atomic := by
  refine atomic_bind s.built_view fun x => ?_
  split
  · exact (Built.fail trivial).atomic_looking
  · exact (Built.bind (.modifyHeap trivial fun h => h.changes_setStack s _) fun _ =>
      .record trivial _).atomic_unfailing

/-- What is done to the active scope after a record of it. -/
theorem atomic_recorded (s : StackId) (r : Stack → String → TraceRecord) (name : Value)
    {onActive : ScopeId → Action Unit} (ha : ∀ c, (onActive c).Atomic) :
    (s.view >>= fun st => recordShown (r st) (·.display name) >>= fun _ =>
      onActive st.active).Atomic :=
  atomic_bind s.built_view fun _ => atomic_bind (.recordShown trivial _ _) fun _ => ha _

theorem atomic_defineConst_text (s : StackId) (name : String) (v : Value) :
    (s.defineConst (.text name) v).Atomic :=
  s.atomic_recorded (fun st text => .definedConstant text st.depth) _
    fun c => (c.built_define_text _ _ _).atomic_unfailing

theorem atomic_defineMut_text (s : StackId) (name : String) (v : Value) :
    (s.defineMut (.text name) v).Atomic :=
  s.atomic_recorded (fun st text => .definedVariable text st.depth) _
    fun c => (c.built_define_text _ _ _).atomic_unfailing

theorem atomic_bind (s : StackId) (name : Value) (t : SlotId) : (s.bind name t).Atomic :=
  s.atomic_recorded (fun st text => .boundSlot text st.depth) _ fun c => c.atomic_bind name t

theorem atomic_assign (s : StackId) (name v : Value) : (s.assign name v).Atomic :=
  Action.atomic_bind (s.built_resolve name) fun t => t.atomic_set v

theorem atomic_capture (s : StackId) (names : List Value) : (s.capture names).Atomic :=
  Action.atomic_bind s.built_view fun _ =>
    Action.atomic_bind (.inspect fun _ _ _ => trivial) fun _ =>
      (ScopeId.built_create (fun _ => trivial) _).atomic_unfailing

end StackId

/-! ## Operations of slots, scopes and stacks -/

/-- The commands of slots, scopes and stacks, those that make functions and classes, and the memory
as it is sampled. What is defined has a text for a name. -/
inductive Command.Core : {α : Type} → Command α → Prop where
  | createSlot (kind : SlotKind) (v : Value) : Core (.createSlot kind v)
  | getSlot (t : SlotId) : Core (.getSlot t)
  | slotIsConstant (t : SlotId) : Core (.slotIsConstant t)
  | setSlot (t : SlotId) (v : Value) : Core (.setSlot t v)
  | setSlotDirectly (t : SlotId) (v : Value) : Core (.setSlotDirectly t v)
  | createScope (bindings : Scope) : Core (.createScope bindings)
  | scopeDefineConst (c : ScopeId) (name : String) (v : Value) :
    Core (.scopeDefineConst c (.text name) v)
  | scopeDefineMut (c : ScopeId) (name : String) (v : Value) :
    Core (.scopeDefineMut c (.text name) v)
  | scopeBind (c : ScopeId) (name : Value) (t : SlotId) : Core (.scopeBind c name t)
  | scopeDefineFunc (c : ScopeId) (name : String) (native : Native) :
    Core (.scopeDefineFunc c name native)
  | scopeDefineClass (c : ScopeId) (name : String) (type : HostType) :
    Core (.scopeDefineClass c name type)
  | scopeLookup (c : ScopeId) (name : Value) : Core (.scopeLookup c name)
  | scopeEnumerate (c : ScopeId) : Core (.scopeEnumerate c)
  | scopeCopy (c : ScopeId) : Core (.scopeCopy c)
  | createStack (base : Option ScopeId) (maxDepth : Int) (memoryLimit : Option Int) :
    Core (.createStack base maxDepth memoryLimit)
  | depth (s : StackId) : Core (.depth s)
  | active (s : StackId) : Core (.active s)
  | enter (s : StackId) : Core (.enter s)
  | exit (s : StackId) : Core (.exit s)
  | defineConst (s : StackId) (name : String) (v : Value) : Core (.defineConst s (.text name) v)
  | defineMut (s : StackId) (name : String) (v : Value) : Core (.defineMut s (.text name) v)
  | bind (s : StackId) (name : Value) (t : SlotId) : Core (.bind s name t)
  | lookup (s : StackId) (name : Value) : Core (.lookup s name)
  | get (s : StackId) (name : Value) : Core (.get s name)
  | assign (s : StackId) (name v : Value) : Core (.assign s name v)
  | capture (s : StackId) (names : List Value) : Core (.capture s names)
  | visible (s : StackId) : Core (.visible s)
  | newFunc (name : String) (native : Native) : Core (.newFunc name native)
  | newClass (name : String) (type : HostType) : Core (.newClass name type)
  | sample (resident : Int) : Core (.sample resident)

/-- Commands of slots, scopes and stacks have changed nothing if they fail. -/
theorem Command.Core.atomic {α : Type} {c : Command α} (core : c.Core) : c.run.Atomic := by
  cases core with
  | createSlot kind v => exact (SlotId.built_create (fun _ => trivial) kind v).atomic_unfailing
  | getSlot t => exact (Built.read _).atomic_looking
  | slotIsConstant t => exact t.built_isConstant.atomic_looking
  | setSlot t v => exact t.atomic_set v
  | setSlotDirectly t v => exact t.atomic_setDirectly v
  | createScope bindings => exact (ScopeId.built_create (fun _ => trivial) _).atomic_unfailing
  | scopeDefineConst c name v => exact (c.built_define_text _ _ _).atomic_unfailing
  | scopeDefineMut c name v => exact (c.built_define_text _ _ _).atomic_unfailing
  | scopeBind c name t => exact c.atomic_bind name t
  | scopeDefineFunc c name native =>
    exact c.atomic_define_made name (Value.built_newFunc name native).atomic_unfailing
  | scopeDefineClass c name type => exact c.atomic_define_made name (Value.atomic_newClass name type)
  | scopeLookup c name => exact (c.built_lookup name).atomic_looking
  | scopeEnumerate c => exact c.built_enumerate.atomic_looking
  | scopeCopy c => exact (ScopeId.built_copy (fun _ => trivial) c).atomic_unfailing
  | createStack base maxDepth memoryLimit =>
    exact (StackId.built_create (fun _ => trivial) (fun _ => trivial) _ _ _).atomic_unfailing
  | depth s => exact s.built_depth.atomic_looking
  | active s => exact s.built_active.atomic_looking
  | enter s => exact s.atomic_enter
  | exit s => exact s.atomic_exit
  | defineConst s name v => exact s.atomic_defineConst_text name v
  | defineMut s name v => exact s.atomic_defineMut_text name v
  | bind s name t => exact s.atomic_bind name t
  | lookup s name => exact (s.built_lookup name).atomic_looking
  | get s name => exact (s.built_get name).atomic_looking
  | assign s name v => exact s.atomic_assign name v
  | capture s names => exact s.atomic_capture names
  | visible s => exact s.built_visible.atomic_looking
  | newFunc name native => exact (Value.built_newFunc name native).atomic_unfailing
  | newClass name type => exact Value.atomic_newClass name type
  | sample resident => exact (Built.setResident trivial resident).atomic_unfailing

/-- An operation of slots, scopes and stacks: a command, or the update of a slot. -/
inductive Operation : Type → Type 1 where
  | command {α : Type} (c : Command α) (core : c.Core) : Operation α
  | update (t : SlotId) (revise : Value → Program Value) : Operation Value

namespace Operation

/-- Performs an operation. -/
def run : {α : Type} → Operation α → Action α
  | _, .command c _ => c.run
  | _, .update t revise => t.update fun v => (revise v).toAction

/-- Whether an operation, if it fails, does so on its own account: an update does unless its function
is run. -/
def ownAccount (h : Heap) : {α : Type} → Operation α → Bool
  | _, .command _ _ => true
  | _, .update t _ => (h.slot t).kind ≠ .mutable

/-- Whether an operation fails on its own account. -/
def refused {α : Type} (x : Operation α) (st : State) : Bool :=
  !(x.run.run st).1.isOk && x.ownAccount st.heap

/-- An operation that was performed, with its answer and whether it was refused. -/
structure Performed where
  {α : Type}
  operation : Operation α
  answer : Except Error α
  refused : Bool

/-- Performs operations one after the other, whether they fail or not. -/
def performAll : List ((α : Type) × Operation α) → State → List Performed × State
  | [], st => ([], st)
  | x :: xs, st =>
    let (answer, st₁) := x.2.run.run st
    let (done, st₂) := performAll xs st₁
    (⟨x.2, answer, x.2.refused st⟩ :: done, st₂)

/-- The operations that were performed and not refused. -/
def accepted (done : List Performed) : List Performed := done.filter (!·.refused)

/-- The operations that were performed, to be performed again. -/
def again (done : List Performed) : List ((α : Type) × Operation α) :=
  done.map fun x => ⟨x.α, x.operation⟩

theorem oblivious {α : Type} (x : Operation α) : x.run.Oblivious := by
  cases x with
  | command c core => exact c.built.oblivious
  | update t revise => exact (t.built_update (P := .all) trivial fun v => (revise v).built).oblivious

/-- What is refused changes nothing but the trace. -/
theorem exists_run_of_refused {α : Type} {x : Operation α} {st : State}
    (refused : x.refused st = true) : ∃ trace, (x.run.run st).2 = { st with trace } := by
  obtain ⟨failed, own⟩ := (Bool.and_eq_true _ _).mp refused
  cases x with
  | command c core =>
    cases hr : (c.run.run st).1 with
    | ok a =>
      simp only [run, hr] at failed
      cases failed
    | error e => exact core.atomic st e hr
  | update t revise => exact SlotId.exists_run_update (of_decide_eq_true own) _

/-- Whether an operation is refused does not depend on the trace. -/
theorem refused_congr {α : Type} (x : Operation α) (st : State) (trace : Array TraceRecord) :
    x.refused { st with trace } = x.refused st := by
  obtain ⟨trace', same⟩ := x.oblivious st trace
  simp only [refused, same]

theorem performAll_cons (x : (α : Type) × Operation α) (xs : List ((α : Type) × Operation α))
    (st : State) : performAll (x :: xs) st =
      (⟨x.2, (x.2.run.run st).1, x.2.refused st⟩ :: (performAll xs (x.2.run.run st).2).1,
        (performAll xs (x.2.run.run st).2).2) := rfl

/-- What operations answer does not depend on the trace. -/
theorem performAll_congr (xs : List ((α : Type) × Operation α)) (st : State)
    (trace : Array TraceRecord) : ∃ trace', performAll xs { st with trace } =
      ((performAll xs st).1, { (performAll xs st).2 with trace := trace' }) := by
  induction xs generalizing st trace with
  | nil => exact ⟨trace, rfl⟩
  | cons x xs ih =>
    obtain ⟨trace₁, first⟩ := x.2.oblivious st trace
    obtain ⟨trace₂, rest⟩ := ih (x.2.run.run st).2 trace₁
    refine ⟨trace₂, ?_⟩
    rw [performAll_cons, performAll_cons, first, refused_congr]
    simp only [rest]

/-- Operations that are refused change nothing but the trace, and can be left out of any run: the
other operations answer as before, and the run ends in the same state. -/
theorem refused_changes_nothing :
    (∀ {α : Type} (x : Operation α) (st : State), x.refused st = true →
      ∃ trace, (x.run.run st).2 = { st with trace }) ∧
    ∀ (xs : List ((α : Type) × Operation α)) (st : State),
      ∃ trace, performAll (again (accepted (performAll xs st).1)) st =
        (accepted (performAll xs st).1, { (performAll xs st).2 with trace }) := by
  refine ⟨fun x st => exists_run_of_refused, fun xs st => ?_⟩
  induction xs generalizing st with
  | nil => exact ⟨st.trace, rfl⟩
  | cons x xs ih =>
    obtain ⟨trace, rest⟩ := ih (x.2.run.run st).2
    rw [performAll_cons]
    cases hx : x.2.refused st with
    | false =>
      -- The operation is performed again, and then what is left of the others.
      refine ⟨trace, ?_⟩
      show performAll (⟨x.1, x.2⟩ :: again (accepted _)) st = _
      rw [performAll_cons, rest, hx]
      rfl
    | true =>
      -- The others are performed in the state that the operation left as it was.
      obtain ⟨trace₁, same⟩ := exists_run_of_refused hx
      obtain ⟨trace₂, shifted⟩ := performAll_congr
        (again (accepted (performAll xs (x.2.run.run st).2).1)) (x.2.run.run st).2 st.trace
      refine ⟨trace₂, ?_⟩
      rw [rest, same] at shifted
      show performAll (again (accepted (performAll xs (x.2.run.run st).2).1)) st = _
      rw [same]
      exact shifted

/-- Two slots that cannot be written, a stack that cannot be entered, and every operation that they
refuse between some that succeed. -/
def refusing : List ((α : Type) × Operation α) :=
  [⟨_, .command _ (.createSlot .constant (.int 1))⟩,
    ⟨_, .command _ (.createSlot .bare (.int 2))⟩,
    ⟨_, .command _ (.createStack none 0 none)⟩,
    ⟨_, .command _ (.enter ⟨0⟩)⟩,
    ⟨_, .command _ (.exit ⟨0⟩)⟩,
    ⟨_, .command _ (.bind ⟨0⟩ (.text "n") ⟨0⟩)⟩,
    ⟨_, .command _ (.assign ⟨0⟩ (.text "n") (.int 3))⟩,
    ⟨_, .update ⟨0⟩ fun _ => .done (.int 3)⟩,
    ⟨_, .command _ (.setSlotDirectly ⟨1⟩ (.int 3))⟩,
    ⟨_, .command _ (.get ⟨0⟩ (.text "m"))⟩,
    ⟨_, .command _ (.scopeDefineClass ⟨0⟩ "C" .onlySet)⟩,
    ⟨_, .command _ (.get ⟨0⟩ (.text "n"))⟩]

theorem refused_changes_nothing_refusing :
    (performAll refusing .initial).1.map (·.refused) =
      [false, false, false, true, true, false, true, true, true, true, true, false] ∧
    (∃ st x, st = (performAll (refusing.take 3) .initial).2 ∧
      x = Operation.command _ (.enter ⟨0⟩) ∧ x.refused st = true ∧
      ∃ trace, (x.run.run st).2 = { st with trace }) ∧
    ∃ trace, performAll (again (accepted (performAll refusing .initial).1)) .initial =
      (accepted (performAll refusing .initial).1,
        { (performAll refusing .initial).2 with trace }) := by
  have refused : (Operation.command _ (.enter ⟨0⟩)).refused
      (performAll (refusing.take 3) .initial).2 = true := by decide +kernel
  exact ⟨by decide +kernel, ⟨_, _, rfl, rfl, refused, refused_changes_nothing.1 _ _ refused⟩,
    refused_changes_nothing.2 refusing .initial⟩

end Operation

end LexEnv
