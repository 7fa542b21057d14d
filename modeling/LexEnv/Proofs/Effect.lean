import LexEnv.Proofs.Event
import LexEnv.Proofs.Environment

/-!
# The events of commands

`Command.events` lists what a command does to slots, scopes and stacks: a write for an assignment
that succeeds, the creation of a slot and its binding for a definition, nothing for a command that
fails before it changes anything. Main statement: performing a command is the evolution by its
events (`Command.evolves`), one case for each command. Laws of runs use only this statement, so a
command that is changed asks for one new case here.
-/

namespace LexEnv

/-- The event of an operation, if the operation succeeded. -/
def Event.ifDone {α : Type} (outcome : Except Error α) (e : Event) : List Event :=
  match outcome with
  | .ok _ => [e]
  | .error _ => []

/-! ## Definitions of events -/

namespace ScopeId

/-- The event of binding a key to a slot. -/
def keyEvents (via : Option StackId) (c : ScopeId) (key : Key) (t : SlotId) (h : Heap) :
    List Event :=
  match h.put key t (h.scope c) with
  | .ok bindings => [.bound via c key t bindings]
  | .error _ => []

/-- The event of binding a name to a slot. -/
def bindEvents (via : Option StackId) (c : ScopeId) (name : Value) (t : SlotId) (h : Heap) :
    List Event :=
  match h.key name with
  | .ok key => c.keyEvents via key t h
  | .error _ => []

/-- The events of binding a name to a new slot. -/
def defineEvents (via : Option StackId) (c : ScopeId) (kind : SlotKind) (name v : Value)
    (h : Heap) : List Event :=
  match h.key name with
  | .ok key =>
    let (t, h) := h.addSlot ⟨kind, v⟩
    .created t ⟨kind, v⟩ :: c.keyEvents via key t h
  | .error _ => []

/-- The events of binding a name to a constant slot with a value that is made first. -/
def defineMadeEvents (c : ScopeId) (name : String) (made : Action Value) (st : State) :
    List Event :=
  match made.run st with
  | (.ok v, st') => c.defineEvents none .constant (.text name) v st'.heap
  | (.error _, _) => []

end ScopeId

namespace StackId

/-- The events of a definition in the active scope of a stack. -/
def defineEvents (s : StackId) (kind : SlotKind) (name v : Value) (h : Heap) : List Event :=
  (h.stack s).active.defineEvents (some s) kind name v h

/-- The event of writing into the slot of a name. -/
def assignEvents (s : StackId) (name v : Value) (st : State) : List Event :=
  match ((s.lookup name).run st).1 with
  | .ok (some t) => Event.ifDone ((s.assign name v).run st).1 (.wrote t v)
  | _ => []

/-- The event of making a scope with the slots of some names. -/
def captureEvents (s : StackId) (names : List Value) (st : State) : List Event :=
  match (s.capture names).run st with
  | (.ok c, st') => [.opened c (st'.heap.scope c)]
  | (.error _, _) => []

end StackId

/-- What a command does to slots, scopes and stacks. -/
def Command.events : {α : Type} → Command α → State → List Event
  | _, .createSlot kind v, st => [.created ⟨st.heap.slots.size⟩ ⟨kind, v⟩]
  | _, .setSlot t v, st => Event.ifDone ((t.set v).run st).1 (.wrote t v)
  | _, .setSlotDirectly t v, st => Event.ifDone ((t.setDirectly v).run st).1 (.wrote t v)
  | _, .createScope bindings, st => [.opened ⟨st.heap.scopes.size⟩ bindings]
  | _, .scopeDefineConst c name v, st => c.defineEvents none .constant name v st.heap
  | _, .scopeDefineMut c name v, st => c.defineEvents none .mutable name v st.heap
  | _, .scopeBind c name t, st => c.bindEvents none name t st.heap
  | _, .scopeDefineFunc c name native, st =>
    c.defineMadeEvents name (Value.newFunc name native) st
  | _, .scopeDefineClass c name type, st => c.defineMadeEvents name (Value.newClass name type) st
  | _, .scopeCopy c, st => [.copied c ⟨st.heap.scopes.size⟩]
  | _, .createStack base maxDepth memoryLimit, st =>
    [.founded ⟨st.heap.scopeStacks.size⟩ base maxDepth memoryLimit]
  | _, .enter s, st => Event.ifDone (s.enter.run st).1 (.entered .bare s)
  | _, .exit s, st => Event.ifDone (s.exit.run st).1 (.exited .bare s)
  | _, .defineConst s name v, st => s.defineEvents .constant name v st.heap
  | _, .defineMut s name v, st => s.defineEvents .mutable name v st.heap
  | _, .bind s name t, st => (st.heap.stack s).active.bindEvents (some s) name t st.heap
  | _, .assign s name v, st => s.assignEvents name v st
  | _, .capture s names, st => s.captureEvents names st
  | _, _, _ => []

/-! ## Slots -/

/-- A silent action evolves the heap by nothing. -/
theorem Action.Silent.evolves {α : Type} {x : Action α} (silent : x.Silent) (st : State) :
    st.heap.Evolves [] (x.run st).2.heap :=
  .none (silent st)

open LexEnv.Action

namespace SlotId

theorem evolves_create (kind : SlotKind) (v : Value) (st : State) :
    st.heap.Evolves [.created ⟨st.heap.slots.size⟩ ⟨kind, v⟩] ((create kind v).run st).2.heap :=
  .one rfl rfl

/-- Storing a value in a mutable slot is one write. -/
theorem evolves_store {t : SlotId} {st : State} (hk : (st.heap.slot t).kind = .mutable)
    (v : Value) : st.heap.Evolves [.wrote t v] ((t.store v).run st).2.heap :=
  .one hk rfl

/-! Each way of writing depends on the kind of the slot alone. -/

section

variable {t : SlotId} {st : State}

theorem run_set_mutable (hk : (st.heap.slot t).kind = .mutable) (v : Value) :
    (t.set v).run st = (t.store v).run st := by
  rw [set, kind, run_read_bind, hk]

theorem run_set_constant (hk : (st.heap.slot t).kind = .constant) (v : Value) :
    (t.set v).run st =
      (.error (.constantWrite v), ((recordShown .rejectedWrite (·.written v)).run st).2) := by
  rw [set, kind, run_read_bind, hk]
  exact run_recordShown_bind _ _ _ st

theorem run_set_bare (hk : (st.heap.slot t).kind = .bare) (v : Value) :
    (t.set v).run st = (.error (.missingAttribute "BaseSlot" "set"), st) := by
  rw [set, kind, run_read_bind, hk]
  rfl

theorem run_setDirectly_mutable (hk : (st.heap.slot t).kind = .mutable) (v : Value) :
    (t.setDirectly v).run st = (t.store v).run st := by
  rw [setDirectly, kind, run_read_bind, hk]

theorem run_setDirectly_of_ne (hk : (st.heap.slot t).kind ≠ .mutable) (v : Value) :
    (t.setDirectly v).run st =
      (.error (.missingAttribute (st.heap.slot t).kind.typeName "_lock"), st) := by
  rw [setDirectly, kind, run_read_bind]
  cases h : (st.heap.slot t).kind with
  | mutable => exact absurd h hk
  | constant => rfl
  | bare => rfl

theorem run_update_mutable (hk : (st.heap.slot t).kind = .mutable)
    (revise : Value → Action Value) :
    (t.update revise).run st = (do
      let new ← revise (st.heap.slot t).value
      t.store new
      return new : Action Value).run st := by
  rw [update, get, run_read_bind, kind, run_read_bind, hk]

theorem run_update_constant (hk : (st.heap.slot t).kind = .constant)
    (revise : Value → Action Value) :
    (t.update revise).run st = (.error (.constantWrite (st.heap.slot t).value),
      ((recordShown .rejectedUpdate (·.written (st.heap.slot t).value)).run st).2) := by
  rw [update, get, run_read_bind, kind, run_read_bind, hk]
  exact run_recordShown_bind _ _ _ st

theorem run_update_bare (hk : (st.heap.slot t).kind = .bare) (revise : Value → Action Value) :
    (t.update revise).run st = (.error (.missingAttribute "BaseSlot" "update"), st) := by
  rw [update, get, run_read_bind, kind, run_read_bind, hk]
  rfl

end

theorem evolves_set (t : SlotId) (v : Value) (st : State) :
    st.heap.Evolves (Event.ifDone ((t.set v).run st).1 (.wrote t v))
      ((t.set v).run st).2.heap := by
  cases hk : (st.heap.slot t).kind with
  | mutable =>
    rw [run_set_mutable hk]
    exact evolves_store hk v
  | constant =>
    rw [run_set_constant hk]
    exact .none ((Built.recordShown trivial _ _).silent st)
  | bare =>
    rw [run_set_bare hk]
    exact .none rfl

theorem evolves_setDirectly (t : SlotId) (v : Value) (st : State) :
    st.heap.Evolves (Event.ifDone ((t.setDirectly v).run st).1 (.wrote t v))
      ((t.setDirectly v).run st).2.heap := by
  by_cases hk : (st.heap.slot t).kind = .mutable
  · rw [run_setDirectly_mutable hk]
    exact evolves_store hk v
  · rw [run_setDirectly_of_ne hk]
    exact .none rfl

end SlotId

/-! ## Scopes -/

namespace ScopeId

variable {via : Option StackId} {c : ScopeId} {st : State}

theorem evolves_bindKey (hvia : ∀ s, via = some s → c = (st.heap.stack s).active) (key : Key)
    (t : SlotId) :
    st.heap.Evolves (c.keyEvents via key t st.heap) ((c.bindKey key t).run st).2.heap := by
  rw [bindKey, run_inspect_bind]
  unfold keyEvents
  cases hp : st.heap.put key t (st.heap.scope c) with
  | error e => exact .none rfl
  | ok bindings =>
    refine .one ⟨hvia, fun e he => Table.mem_put hp he, ?_⟩ rfl
    rintro name rfl
    rw [Heap.put_text] at hp
    exact (Except.ok.inj hp).symm

theorem evolves_bind (hvia : ∀ s, via = some s → c = (st.heap.stack s).active) (name : Value)
    (t : SlotId) :
    st.heap.Evolves (c.bindEvents via name t st.heap) ((c.bind name t).run st).2.heap := by
  rw [bind, run_inspect_bind]
  unfold bindEvents
  cases st.heap.key name with
  | error e => exact .none rfl
  | ok key => exact evolves_bindKey hvia key t

theorem evolves_define (hvia : ∀ s, via = some s → c = (st.heap.stack s).active)
    (kind : SlotKind) (name v : Value) :
    st.heap.Evolves (c.defineEvents via kind name v st.heap)
      ((c.define kind name v).run st).2.heap := by
  rw [define, run_inspect_bind]
  unfold defineEvents
  cases st.heap.key name with
  | error e => exact .none rfl
  | ok key =>
    exact (SlotId.evolves_create kind v st).append
      (@evolves_bindKey via c ((SlotId.create kind v).run st).2 hvia key _)

theorem evolves_defineMade {made : Action Value} (silent : made.Silent) (name : String) :
    st.heap.Evolves (c.defineMadeEvents name made st)
      ((made >>= c.defineConst (.text name)).run st).2.heap := by
  have before := silent st
  rw [Action.run_bind]
  unfold defineMadeEvents
  rcases hm : made.run st with ⟨outcome, st'⟩
  rw [hm] at before
  cases outcome with
  | error e => exact .none before
  | ok v =>
    have direct : ∀ s, none = some s → c = (st'.heap.stack s).active := fun s h => by cases h
    exact Heap.Evolves.congr before.symm (evolves_define direct .constant _ v) rfl

end ScopeId

/-! ## Stacks -/

namespace StackId

variable (s : StackId) (st : State)

theorem evolves_create (base : Option ScopeId) (maxDepth : Int) (memoryLimit : Option Int) :
    st.heap.Evolves [.founded ⟨st.heap.scopeStacks.size⟩ base maxDepth memoryLimit]
      ((create base maxDepth memoryLimit).run st).2.heap :=
  .one rfl rfl

theorem run_enter :
    s.enter.run st =
      match (st.heap.stack s).mayEnter st.resident with
      | .error e => (.error e, st)
      | .ok () =>
        (.ok (), { st with
          heap := (Event.entered .bare s).act st.heap
          trace := st.trace.push (.entered ((st.heap.stack s).depth + 1)) }) := by
  rw [enter, view, run_read_bind]
  show (ofOutcome ((st.heap.stack s).mayEnter st.resident) >>= _).run st = _
  rw [run_bind, run_ofOutcome]
  cases (st.heap.stack s).mayEnter st.resident <;> rfl

/-- What is refused leaves everything as it is. -/
theorem eq_of_enter_error {s : StackId} {st st' : State} {e : Error}
    (refused : s.enter.run st = (.error e, st')) : st' = st := by
  rw [run_enter] at refused
  cases may : (st.heap.stack s).mayEnter st.resident with
  | error e' =>
    rw [may] at refused
    exact (congrArg Prod.snd refused).symm
  | ok u =>
    rw [may] at refused
    cases refused

theorem run_exit :
    s.exit.run st =
      match (st.heap.stack s).suspended with
      | [] => (.error .underflow, st)
      | _ :: rest =>
        (.ok (), { st with
          heap := (Event.exited .bare s).act st.heap
          trace := st.trace.push (.exited rest.length) }) := by
  rw [exit, view, run_read_bind]
  cases h : (st.heap.stack s).suspended with
  | nil => rfl
  | cons outer rest =>
    simp only [Event.act, Stack.pop_of_cons h]
    rfl

/-- What may be entered is not as deep as it may get. -/
theorem depth_lt_of_mayEnter {st : Stack} {resident : Int} (h : st.mayEnter resident = .ok ()) :
    (st.depth : Int) < st.maxDepth := by
  unfold Stack.mayEnter at h
  split at h
  · cases h
  · next deep => exact Int.not_le.mp deep

theorem evolves_enter (passage : Passage) :
    st.heap.Evolves (Event.ifDone (s.enter.run st).1 (.entered passage s))
      (s.enter.run st).2.heap := by
  rw [run_enter]
  cases h : (st.heap.stack s).mayEnter st.resident with
  | error e => exact .none rfl
  | ok u => exact .one (depth_lt_of_mayEnter h) rfl

theorem evolves_entered {s : StackId} {st st' : State} (passage : Passage)
    (entered : s.enter.run st = (.ok (), st')) :
    st.heap.Evolves [.entered passage s] st'.heap := by
  have run := evolves_enter s st passage
  rwa [entered] at run

theorem evolves_exit (passage : Passage) :
    st.heap.Evolves (Event.ifDone (s.exit.run st).1 (.exited passage s))
      (s.exit.run st).2.heap := by
  rw [run_exit]
  cases h : (st.heap.stack s).suspended with
  | nil => exact .none rfl
  | cons outer rest =>
    refine .one ?_ rfl
    show (st.heap.stack s).suspended ≠ []
    rw [h]
    exact List.cons_ne_nil outer rest

/-- What is done in the active scope after a record was left evolves the heap as if there were no
record. -/
theorem evolves_active (r : String → TraceRecord) (shown : Heap → Except Error String)
    {es : List Event} {x : Action Unit}
    (evolves : ∀ st' : State, st'.heap = st.heap → st.heap.Evolves es (x.run st').2.heap) :
    st.heap.Evolves es ((recordShown r shown >>= fun _ => x).run st).2.heap := by
  obtain ⟨trace, h⟩ := exists_run_recordShown r shown st
  rw [run_recordShown_bind, h]
  exact evolves { st with trace } rfl

theorem evolves_defineActive (r : String → TraceRecord) (shown : Heap → Except Error String)
    (kind : SlotKind) (name v : Value) :
    st.heap.Evolves (s.defineEvents kind name v st.heap)
      ((recordShown r shown >>= fun _ =>
        (st.heap.stack s).active.define kind name v).run st).2.heap := by
  refine evolves_active st r shown fun st' same => ?_
  rw [← same]
  exact ScopeId.evolves_define (fun s' hs => by cases hs; rfl) kind name v

theorem evolves_defineConst (name v : Value) :
    st.heap.Evolves (s.defineEvents .constant name v st.heap)
      ((s.defineConst name v).run st).2.heap := by
  rw [defineConst, view, run_read_bind]
  exact evolves_defineActive s st _ _ .constant name v

theorem evolves_defineMut (name v : Value) :
    st.heap.Evolves (s.defineEvents .mutable name v st.heap)
      ((s.defineMut name v).run st).2.heap := by
  rw [defineMut, view, run_read_bind]
  exact evolves_defineActive s st _ _ .mutable name v

theorem evolves_bind (name : Value) (t : SlotId) :
    st.heap.Evolves ((st.heap.stack s).active.bindEvents (some s) name t st.heap)
      ((s.bind name t).run st).2.heap := by
  rw [bind, view, run_read_bind]
  refine evolves_active st _ _ fun st' same => ?_
  rw [← same]
  exact ScopeId.evolves_bind (fun s' hs => by cases hs; rfl) name t

/-- A name that resolves is assigned by setting its slot. -/
theorem run_assign {name : Value} {t : SlotId} (v : Value)
    (h : (s.lookup name).run st = (.ok (some t), st)) :
    (s.assign name v).run st = (t.set v).run st := by
  rw [assign, run_bind, resolve, run_bind, h]
  rfl

theorem run_lookup (name : Value) :
    (s.lookup name).run st =
      ((do st.heap.resolve (← st.heap.key name) (st.heap.stack s).chain), st) := rfl

/-- A name that does not resolve is not assigned: nothing changes. -/
theorem run_assign_unresolved {name : Value} (v : Value) {outcome : Except Error (Option SlotId)}
    (h : (s.lookup name).run st = (outcome, st)) (unresolved : ∀ t, outcome ≠ .ok (some t)) :
    ((s.assign name v).run st).2 = st := by
  rw [assign, run_bind, resolve, run_bind, h]
  match outcome, unresolved with
  | .error e, _ => rfl
  | .ok none, _ =>
    simp only
    rw [run_inspect_bind]
    cases st.heap.gapText name <;> rfl
  | .ok (some t), unresolved => exact absurd rfl (unresolved t)

theorem evolves_assign (name v : Value) :
    st.heap.Evolves (s.assignEvents name v st) ((s.assign name v).run st).2.heap := by
  unfold assignEvents
  have found := run_lookup s st name
  rw [found]
  split
  · next t h =>
    simp only at h
    rw [h] at found
    rw [run_assign s st v found]
    exact SlotId.evolves_set t v st
  · next unresolved =>
    rw [run_assign_unresolved s st v found unresolved]
    exact .none rfl

end StackId

/-- The bindings that capturing some names yields: those of the names that resolve. -/
def Heap.captured (h : Heap) (chain : List ScopeId) (names : List Value) : Except Error Scope :=
  names.foldlM (fun captured name => do
    let key ← h.key name
    match ← h.resolve key chain with
    | some slot => h.put key slot captured
    | none => return captured) Table.empty

namespace StackId

theorem run_capture (s : StackId) (names : List Value) (st : State) :
    (s.capture names).run st =
      (inspect (·.captured (st.heap.stack s).chain names) >>= ScopeId.create).run st := by
  rw [capture, view, run_read_bind]
  rfl

theorem evolves_capture (s : StackId) (names : List Value) (st : State) :
    st.heap.Evolves (s.captureEvents names st) ((s.capture names).run st).2.heap := by
  unfold captureEvents
  rw [run_capture, run_inspect_bind]
  cases st.heap.captured (st.heap.stack s).chain names with
  | error e => exact .none rfl
  | ok bindings =>
    have new : (st.heap.addScope bindings).2.scope ⟨st.heap.scopes.size⟩ = bindings :=
      Heap.scope_addScope_new st.heap bindings rfl
    exact .one rfl (congrArg (fun b => (st.heap.addScope b).2.environment) new.symm)

end StackId

/-! ## Commands -/

/-- Performing a command evolves the heap by the events of the command. -/
theorem Command.evolves {α : Type} (c : Command α) (st : State) :
    st.heap.Evolves (c.events st) (c.run.run st).2.heap := by
  have direct : ∀ {c : ScopeId} (s : StackId), none = some s → c = (st.heap.stack s).active :=
    fun s h => by cases h
  cases c with
  | createSlot kind v => exact SlotId.evolves_create kind v st
  | setSlot t v => exact SlotId.evolves_set t v st
  | setSlotDirectly t v => exact SlotId.evolves_setDirectly t v st
  | createScope bindings => exact .one rfl rfl
  | scopeDefineConst c name v => exact ScopeId.evolves_define direct .constant name v
  | scopeDefineMut c name v => exact ScopeId.evolves_define direct .mutable name v
  | scopeBind c name t => exact ScopeId.evolves_bind direct name t
  | scopeDefineFunc c name native =>
    exact ScopeId.evolves_defineMade (Value.built_newFunc name native).silent name
  | scopeDefineClass c name type =>
    exact ScopeId.evolves_defineMade (Value.built_newClass name type).silent name
  | scopeCopy c => exact .one rfl rfl
  | createStack base maxDepth memoryLimit =>
    exact StackId.evolves_create st base maxDepth memoryLimit
  | enter s => exact StackId.evolves_enter s st .bare
  | exit s => exact StackId.evolves_exit s st .bare
  | defineConst s name v => exact StackId.evolves_defineConst s st name v
  | defineMut s name v => exact StackId.evolves_defineMut s st name v
  | bind s name t => exact StackId.evolves_bind s st name t
  | assign s name v => exact StackId.evolves_assign s st name v
  | capture s names => exact StackId.evolves_capture s names st
  | _ => exact (Command.silent _ rfl).evolves st

end LexEnv
